/-
# The reorder list of one session

What the draining and inserting functions do to a list that lies in its window, and the two
invariants of an entry built from it:

* `Ordered`: the list lies in `(LastIndSeq, LastIndSeq + BAWinSize]`, in increasing order, and
  `qlen` counts it. This is what the driver's assertions speak about.
* `Settled`: moreover the next number in order, `LastIndSeq + 1`, is not waiting in the list. This
  is what makes `Ordered` survive the next frame: an in-order frame moves `LastIndSeq` onto its
  own number, and the list must not contain it.

Every function below is given one lemma that says what it leaves in the list; the case analysis of
a received frame only uses these.
-/
import Mt7601.Ba.Defs
import Mt7601.Lib.SeqNum
import Mathlib.Tactic.Set
import Mathlib.Tactic.Tauto

namespace Mt7601.Ba

open SeqNum

/-! ## 1. The comparison macros as circle arithmetic -/

theorem and_maxSeq (n : Nat) : n &&& maxSeq = n % 4096 :=
  Nat.and_two_pow_sub_one_eq_mod n 12

theorem seqStepOne_iff {s t : Nat} : seqStepOne s t maxSeq = true ↔ s = (t + 1) % 4096 := by
  simp [seqStepOne, and_maxSeq]

theorem and_bit11_ne_zero (x : BitVec 32) :
    (x &&& 2048#32 != 0) = decide (x.toNat / 2048 % 2 = 1) := by
  have hx : x &&& 2048#32 = if x.getLsbD 11 then 2048#32 else 0#32 := by
    apply BitVec.eq_of_getLsbD_eq
    intro i hi
    have hbit : (2048#32).getLsbD i = decide (i = 11) := by
      rw [BitVec.getLsbD_ofNat, show (2048 : Nat) = 2 ^ 11 from rfl, Nat.testBit_two_pow]
      simp [hi, eq_comm]
    rw [BitVec.getLsbD_and, hbit]
    by_cases h11 : i = 11
    · subst h11
      cases h : x.getLsbD 11 <;> simp
    · split <;> simp [h11]
      simpa [h11] using hbit
  rw [hx, BitVec.getLsbD, Nat.testBit_eq_decide_div_mod_eq, show (2 : Nat) ^ 11 = 2048 from rfl]
  by_cases hd : x.toNat / 2048 % 2 = 1 <;> simp [hd]

/-- `SEQ_SMALLER` is serial-number comparison over `2 * 2048` numbers. -/
theorem seqSmaller_iff {s t : Nat} : seqSmaller s t maxSeq = true ↔ Precedes 2048 s t := by
  have hlim : BitVec.ofNat 32 ((maxSeq + 1) >>> 1) = 2048#32 := rfl
  rw [seqSmaller, hlim, and_bit11_ne_zero, BitVec.toNat_sub, BitVec.toNat_ofNat,
    BitVec.toNat_ofNat]
  unfold Precedes offset
  simp only [decide_eq_true_eq]
  omega

variable {b s t : Nat}

theorem seqSmaller_of_offset_lt (h : offset 4096 b s < offset 4096 b t)
    (hd : offset 4096 b t ≤ offset 4096 b s + 2048) : seqSmaller s t maxSeq = true :=
  seqSmaller_iff.mpr (precedes_of_offset_lt h hd)

theorem not_seqSmaller_of_offset_le (h : offset 4096 b t ≤ offset 4096 b s)
    (hd : offset 4096 b s < offset 4096 b t + 2048) : ¬ seqSmaller s t maxSeq = true :=
  fun hs => not_precedes_of_offset_le (by decide) h hd (seqSmaller_iff.mp hs)

/-! ## 2. The invariants -/

namespace BaRecEntry

/-- The sequence numbers of the list, head first. -/
def keys (e : BaRecEntry) : List Nat :=
  e.list.next.map fun mpdu => mpdu.sequence.val

end BaRecEntry

/-- **The list of an entry is in order**: it lies in the window that opens behind `LastIndSeq`. -/
structure Ordered (e : BaRecEntry) : Prop where
  linked : e.list.qlen = e.list.next.length
  reset : e.lastIndSeq = resetRcvSeq → e.list.next = []
  last : e.lastIndSeq = resetRcvSeq ∨ e.lastIndSeq < 4096
  window : InWindow 4096 e.lastIndSeq e.baWinSize.toNat e.keys

/-- **Nothing in the list is due**: the number after `LastIndSeq` is not waiting. -/
structure Settled (e : BaRecEntry) : Prop extends Ordered e where
  gap : ∀ s ∈ e.keys, 1 < offset 4096 e.lastIndSeq s

theorem BaRecEntry.winSize_lt (e : BaRecEntry) : e.baWinSize.toNat < 256 :=
  UInt8.toNat_lt e.baWinSize

theorem BaRecEntry.lt_of_mem_keys {e : BaRecEntry} {s : Nat} (h : s ∈ e.keys) : s < 4096 := by
  obtain ⟨mpdu, -, rfl⟩ := List.mem_map.mp h
  exact mpdu.sequence.isLt

/-- An entry whose list is empty is settled, whatever its numbers are. -/
theorem Settled.of_empty {e : BaRecEntry} (hnext : e.list.next = []) (hqlen : e.list.qlen = 0)
    (hlast : e.lastIndSeq = resetRcvSeq ∨ e.lastIndSeq < 4096) : Settled e := by
  have hkeys : e.keys = [] := by simp [BaRecEntry.keys, hnext]
  refine ⟨⟨by simp [hnext, hqlen], fun _ => hnext, hlast, ?_⟩, ?_⟩
  · rw [hkeys]
    exact InWindow.nil
  · simp [hkeys]

theorem Ordered.of_lt {e : BaRecEntry} {w : Nat} (hlinked : e.list.qlen = e.list.next.length)
    (hlast : e.lastIndSeq < 4096) (hw : e.baWinSize.toNat = w)
    (hwin : InWindow 4096 e.lastIndSeq w e.keys) : Ordered e := by
  refine ⟨hlinked, fun h => ?_, .inr hlast, hw ▸ hwin⟩
  rw [h] at hlast
  exact absurd hlast (by decide)

/-- The invariant reads the list, the last number and the window size only. -/
theorem Settled.congr {e e' : BaRecEntry} (h : Settled e) (hlist : e'.list = e.list)
    (hlast : e'.lastIndSeq = e.lastIndSeq) (hwin : e'.baWinSize = e.baWinSize) : Settled e' := by
  have hkeys : e'.keys = e.keys := by rw [BaRecEntry.keys, hlist, BaRecEntry.keys]
  refine ⟨⟨?_, ?_, ?_, ?_⟩, ?_⟩
  · rw [hlist]
    exact h.linked
  · rw [hlist, hlast]
    exact h.reset
  · rw [hlast]
    exact h.last
  · rw [hlast, hwin, hkeys]
    exact h.window
  · rw [hlast, hkeys]
    exact h.gap

/-! ## 3. Taking blocks off the head -/

/-- The state after the head has been dequeued, announced and given back. -/
def Rx.takeHead (rx : Rx) (blk : ReorderingMpdu) (rest : List ReorderingMpdu) : Rx :=
  { (rx.setList ⟨rest, rest.length⟩).note (.announce blk) with freelist := rx.freelist + 1 }

theorem indicateHead_cons {rx : Rx} {blk : ReorderingMpdu} {rest : List ReorderingMpdu}
    (hnext : rx.entry.list.next = blk :: rest)
    (hlinked : rx.entry.list.qlen = rx.entry.list.next.length) :
    indicateHead rx = some (blk, rx.takeHead blk rest) := by
  have hq : rx.entry.list.qlen = rest.length + 1 := by rw [hlinked, hnext]; rfl
  have hdeq : baDequeue rx.entry.list = (some blk, ⟨rest, rest.length⟩) := by
    unfold baDequeue
    rw [if_neg (by omega), hnext]
    simp [hq]
  simp [indicateHead, hdeq, Rx.takeHead]

theorem indicateHead_nil {rx : Rx} (hnext : rx.entry.list.next = []) : indicateHead rx = none := by
  unfold indicateHead baDequeue
  split
  · rfl
  · split at * <;> simp_all

/-- **What draining may change**: the list, its count, the pool and the log -- nothing else of the
entry. -/
structure Drained (rx rx' : Rx) : Prop where
  frame : rx'.entry = { rx.entry with list := rx'.entry.list }
  linked : rx'.entry.list.qlen = rx'.entry.list.next.length
  freed : rx'.freelist + rx'.entry.list.next.length = rx.freelist + rx.entry.list.next.length

theorem Drained.refl {rx : Rx} (h : rx.entry.list.qlen = rx.entry.list.next.length) :
    Drained rx rx :=
  ⟨rfl, h, rfl⟩

theorem Drained.lastIndSeq {rx rx' : Rx} (h : Drained rx rx') :
    rx'.entry.lastIndSeq = rx.entry.lastIndSeq := by
  rw [h.frame]

theorem Drained.baWinSize {rx rx' : Rx} (h : Drained rx rx') :
    rx'.entry.baWinSize = rx.entry.baWinSize := by
  rw [h.frame]

/-- One round of a draining loop, followed by the rest of them. -/
theorem Drained.step {rx rx' : Rx} {blk : ReorderingMpdu} {rest : List ReorderingMpdu}
    (hnext : rx.entry.list.next = blk :: rest)
    (h : Drained (rx.takeHead blk rest) rx') : Drained rx rx' where
  frame := h.frame
  linked := h.linked
  freed := by
    have := h.freed
    simp only [Rx.takeHead, Rx.note, Rx.setList] at this
    rw [hnext, List.length_cons]
    omega

/-- **`ba_indicate_reordering_mpdus_le_seq` removes what lies up to the given number.** Seen from a
base behind which the list is ordered, the blocks that stay are exactly those farther away than
`sequence`, provided the latter is at most half the circle ahead of the base. -/
theorem leSeqLoop_spec {b w seq : Nat} (hw : w < 2048) (hseq : seq < 4096)
    (hhalf : offset 4096 b seq ≤ 2048) :
    ∀ (fuel : Nat) (rx : Rx), rx.entry.list.next.length ≤ fuel →
      rx.entry.list.qlen = rx.entry.list.next.length →
      InWindow 4096 b w rx.entry.keys →
      Drained rx (leSeqLoop fuel rx seq) ∧
        (leSeqLoop fuel rx seq).entry.list.next =
          rx.entry.list.next.filter fun m => offset 4096 b seq < offset 4096 b m.sequence
  | fuel, rx, hfuel, hlinked, hwin => by
    rcases hnext : rx.entry.list.next with _ | ⟨blk, rest⟩
    · -- an empty list ends the loop at the probe
      have hstop : leSeqLoop fuel rx seq = rx := by
        cases fuel with
        | zero => rfl
        | succ fuel => simp [leSeqLoop, baReorderingMpduProbe, hnext]
      rw [hstop]
      exact ⟨Drained.refl hlinked, by simp [hnext]⟩
    · obtain ⟨fuel, rfl⟩ : ∃ n, fuel = n + 1 := by
        cases fuel with
        | zero => simp [hnext] at hfuel
        | succ n => exact ⟨n, rfl⟩
      have hkeys : rx.entry.keys = blk.sequence.val :: rest.map fun m => m.sequence.val := by
        simp [BaRecEntry.keys, hnext]
      rw [hkeys] at hwin
      have hblk := hwin.le _ List.mem_cons_self
      by_cases hle : offset 4096 b blk.sequence ≤ offset 4096 b seq
      · -- the head is due: equal to the number, or before it
        have htest : blk.sequence.val = seq ∨ seqSmaller blk.sequence seq maxSeq = true := by
          rcases Nat.eq_or_lt_of_le hle with heq | hlt
          · exact .inl (eq_of_offset_eq blk.sequence.isLt hseq heq)
          · exact .inr (seqSmaller_of_offset_lt hlt (by omega))
        have hloop : leSeqLoop (fuel + 1) rx seq = leSeqLoop fuel (rx.takeHead blk rest) seq := by
          simp only [leSeqLoop, baReorderingMpduProbe, hnext, List.head?_cons]
          rw [if_pos htest, indicateHead_cons hnext hlinked]
        obtain ⟨hdr, hrest⟩ := leSeqLoop_spec hw hseq hhalf fuel (rx.takeHead blk rest)
          (by simpa [hnext, Rx.takeHead, Rx.note, Rx.setList] using hfuel) rfl hwin.tail
        rw [hloop]
        refine ⟨hdr.step hnext, ?_⟩
        rw [hrest, List.filter_cons_of_neg (by simpa using hle)]
        rfl
      · -- the head stays, and so does everything behind it
        have htest : ¬ (blk.sequence.val = seq ∨ seqSmaller blk.sequence seq maxSeq = true) := by
          rintro (heq | hsm)
          · exact hle (by rw [heq])
          · exact not_seqSmaller_of_offset_le (Nat.le_of_not_le hle) (by omega) hsm
        have hloop : leSeqLoop (fuel + 1) rx seq = rx := by
          simp only [leSeqLoop, baReorderingMpduProbe, hnext, List.head?_cons]
          rw [if_neg htest]
        rw [hloop]
        refine ⟨Drained.refl hlinked, ?_⟩
        rw [hnext, List.filter_eq_self.mpr]
        intro m hm
        rcases List.mem_cons.mp hm with rfl | hm
        · simpa using hle
        · have := hwin.head_lt (List.mem_map.mpr ⟨m, hm, rfl⟩)
          simp only [decide_eq_true_eq]
          omega

theorem leSeq_spec (rx : Rx) {b w seq : Nat} (hw : w < 2048) (hseq : seq < 4096)
    (hhalf : offset 4096 b seq ≤ 2048)
    (hlinked : rx.entry.list.qlen = rx.entry.list.next.length)
    (hwin : InWindow 4096 b w rx.entry.keys) :
    Drained rx (baIndicateReorderingMpdusLeSeq rx seq) ∧
      (baIndicateReorderingMpdusLeSeq rx seq).entry.list.next =
        rx.entry.list.next.filter fun m => offset 4096 b seq < offset 4096 b m.sequence :=
  leSeqLoop_spec hw hseq hhalf _ rx (Nat.le_refl _) hlinked hwin

/-- The keys that are left after `le_seq`, seen from a base moved forward by no more than was
removed. -/
theorem keys_leSeq (rx : Rx) {rx' : Rx} {b w o k : Nat} (hk : k ≤ o)
    (hwin : InWindow 4096 b w rx.entry.keys)
    (hnext : rx'.entry.list.next = rx.entry.list.next.filter fun m =>
      o < offset 4096 b m.sequence) :
    InWindow 4096 (b + k) w rx'.entry.keys ∧
      ∀ s ∈ rx'.entry.keys, o < offset 4096 b s := by
  have hsub : rx'.entry.keys.Sublist rx.entry.keys := by
    unfold BaRecEntry.keys
    rw [hnext]
    exact List.filter_sublist.map _
  have hfar : ∀ s ∈ rx'.entry.keys, o < offset 4096 b s := by
    intro s hs
    obtain ⟨m, hm, rfl⟩ := List.mem_map.mp hs
    rw [hnext] at hm
    simpa using (List.mem_filter.mp hm).2
  exact ⟨(hwin.sublist hsub).advance (by omega) fun s hs => by have := hfar s hs; omega, hfar⟩

/-- **`ba_indicate_reordering_mpdus_in_order` follows the head** for as long as it is the next
number: it ends at a number `start'` behind which nothing is due, and returns that number if it
indicated anything at all. -/
theorem inOrderLoop_spec {w : Nat} :
    ∀ (fuel : Nat) (rx : Rx) (start last : Nat), rx.entry.list.next.length ≤ fuel →
      rx.entry.list.qlen = rx.entry.list.next.length → start < 4096 →
      InWindow 4096 start w rx.entry.keys →
      ∃ start' < 4096, Drained rx (inOrderLoop fuel rx start last).1 ∧
        InWindow 4096 start' w (inOrderLoop fuel rx start last).1.entry.keys ∧
        (∀ s ∈ (inOrderLoop fuel rx start last).1.entry.keys, 1 < offset 4096 start' s) ∧
        ((inOrderLoop fuel rx start last).2 = last ∧ start' = start ∨
          (inOrderLoop fuel rx start last).2 = start')
  | fuel, rx, start, last, hfuel, hlinked, hstart, hwin => by
    rcases hnext : rx.entry.list.next with _ | ⟨blk, rest⟩
    · have hstop : inOrderLoop fuel rx start last = (rx, last) := by
        cases fuel with
        | zero => rfl
        | succ fuel => simp [inOrderLoop, baReorderingMpduProbe, hnext]
      rw [hstop]
      refine ⟨start, hstart, Drained.refl hlinked, hwin, ?_, .inl ⟨rfl, rfl⟩⟩
      simp [BaRecEntry.keys, hnext]
    · obtain ⟨fuel, rfl⟩ : ∃ n, fuel = n + 1 := by
        cases fuel with
        | zero => simp [hnext] at hfuel
        | succ n => exact ⟨n, rfl⟩
      have hkeys : rx.entry.keys = blk.sequence.val :: rest.map fun m => m.sequence.val := by
        simp [BaRecEntry.keys, hnext]
      by_cases hone : blk.sequence.val = (start + 1) % 4096
      · -- the head is the next number, and becomes the new start
        have hloop : inOrderLoop (fuel + 1) rx start last =
            inOrderLoop fuel (rx.takeHead blk rest) blk.sequence blk.sequence := by
          have htest := seqStepOne_iff.mpr hone
          simp [inOrderLoop, baReorderingMpduProbe, hnext, htest, indicateHead_cons hnext hlinked]
        have hoff : offset 4096 start blk.sequence = 1 := by
          rw [hone, offset_mod (by decide), offset_add (by decide)]
        have hrest : InWindow 4096 blk.sequence w (rest.map fun m => m.sequence.val) := by
          rw [hone, InWindow.base_mod (by decide)]
          rw [hkeys] at hwin
          refine hwin.tail.advance (by decide) fun s hs => ?_
          have := hwin.head_lt hs
          omega
        obtain ⟨start', hlt, hdr, hwin', hgap, hres⟩ := inOrderLoop_spec fuel (rx.takeHead blk rest)
          blk.sequence blk.sequence
          (by simpa [hnext, Rx.takeHead, Rx.note, Rx.setList] using hfuel) rfl blk.sequence.isLt
          hrest
        rw [hloop]
        refine ⟨start', hlt, hdr.step hnext, hwin', hgap, .inr ?_⟩
        rcases hres with ⟨h, rfl⟩ | h
        · exact h
        · exact h
      · have hloop : inOrderLoop (fuel + 1) rx start last = (rx, last) := by
          have htest : seqStepOne blk.sequence start maxSeq = false := by
            rw [Bool.eq_false_iff]
            exact fun h => hone (seqStepOne_iff.mp h)
          simp [inOrderLoop, baReorderingMpduProbe, hnext, htest]
        rw [hloop]
        refine ⟨start, hstart, Drained.refl hlinked, hwin, ?_, .inl ⟨rfl, rfl⟩⟩
        have hhead : 1 < offset 4096 start blk.sequence := by
          rw [hkeys] at hwin
          have hpos := hwin.pos _ List.mem_cons_self
          have hne : offset 4096 start blk.sequence ≠ 1 := by
            intro h1
            refine hone (eq_of_offset_eq (b := start) blk.sequence.isLt
              (Nat.mod_lt _ (by decide)) ?_)
            rw [h1, offset_mod (by decide), offset_add (by decide)]
          omega
        intro s hs
        rw [hkeys] at hs hwin
        rcases List.mem_cons.mp hs with rfl | hs
        · exact hhead
        · have := hwin.head_lt hs
          omega

/-! ## 4. The session of an entry, and what stays the same in it -/

/-- What the functions of this file never write: whose session it is, its window size and its
status. -/
def BaRecEntry.session (e : BaRecEntry) : Nat × Fin 16 × UInt8 × RecBlockackStatus :=
  (e.wcid, e.tid, e.baWinSize, e.recBaStatus)

theorem Drained.session {rx rx' : Rx} (h : Drained rx rx') :
    rx'.entry.session = rx.entry.session := by
  rw [h.frame]
  rfl

/-- **Indicating in order settles the entry.** -/
theorem indicateInOrderFrom_spec (rx : Rx) {start : Nat} (hstart : start < 4096)
    (hlast : rx.entry.lastIndSeq = start)
    (hlinked : rx.entry.list.qlen = rx.entry.list.next.length)
    (hwin : InWindow 4096 start rx.entry.baWinSize.toNat rx.entry.keys) :
    Settled (indicateInOrderFrom rx start).entry ∧
      (indicateInOrderFrom rx start).entry.session = rx.entry.session := by
  obtain ⟨start', hlt, hdr, hwin', hgap, hres⟩ := inOrderLoop_spec _ rx start resetRcvSeq
    (Nat.le_refl _) hlinked hstart hwin
  change Drained rx (baIndicateReorderingMpdusInOrder rx start).1 at hdr
  change InWindow 4096 start' _ (baIndicateReorderingMpdusInOrder rx start).1.entry.keys at hwin'
  change ∀ s ∈ (baIndicateReorderingMpdusInOrder rx start).1.entry.keys, _ at hgap
  change (baIndicateReorderingMpdusInOrder rx start).2 = _ ∧ _ ∨
    (baIndicateReorderingMpdusInOrder rx start).2 = _ at hres
  unfold indicateInOrderFrom
  generalize hr : baIndicateReorderingMpdusInOrder rx start = r at *
  obtain ⟨rx', seq⟩ := r
  have hreset : start' ≠ resetRcvSeq := by
    simp only [resetRcvSeq]
    omega
  -- either way the entry ends with LastIndSeq = start'
  have hentry : (if seq ≠ resetRcvSeq then rx'.setLastIndSeq seq else rx').entry =
      { rx'.entry with lastIndSeq := start' } := by
    rcases hres with ⟨h, rfl⟩ | h
    · simp only at h
      rw [if_neg (by simp [h]), ← hlast, ← hdr.lastIndSeq]
    · simp only at h
      rw [h, if_pos hreset]
      rfl
  simp only at hentry hdr hwin' hgap
  simp only [hentry]
  have hord : Ordered { rx'.entry with lastIndSeq := start' } :=
    Ordered.of_lt hdr.linked hlt (congrArg UInt8.toNat hdr.baWinSize) hwin'
  exact ⟨⟨hord, hgap⟩, hdr.session⟩

/-- **`ba_refresh_reordering_mpdus` empties the list** and forgets the last number. -/
theorem refreshLoop_spec :
    ∀ (fuel : Nat) (rx : Rx), rx.entry.list.next.length ≤ fuel →
      rx.entry.list.qlen = rx.entry.list.next.length →
      (refreshLoop fuel rx).entry.list = {} ∧
        (refreshLoop fuel rx).entry.session = rx.entry.session
  | fuel, rx, hfuel, hlinked => by
    rcases hnext : rx.entry.list.next with _ | ⟨blk, rest⟩
    · have hstop : refreshLoop fuel rx = rx := by
        cases fuel with
        | zero => rfl
        | succ fuel => simp [refreshLoop, indicateHead_nil hnext]
      have hlist : rx.entry.list = {} := by
        rcases hl : rx.entry.list with ⟨next, qlen⟩
        rw [hl] at hnext hlinked
        simp_all
      rw [hstop]
      exact ⟨hlist, rfl⟩
    · obtain ⟨fuel, rfl⟩ : ∃ n, fuel = n + 1 := by
        cases fuel with
        | zero => simp [hnext] at hfuel
        | succ n => exact ⟨n, rfl⟩
      have ih := refreshLoop_spec fuel ((rx.takeHead blk rest).setLastIndSeq blk.sequence)
        (by simpa [hnext, Rx.takeHead, Rx.note, Rx.setList, Rx.setLastIndSeq] using hfuel) rfl
      simp only [refreshLoop, indicateHead_cons hnext hlinked]
      exact ih

theorem refresh_spec (rx : Rx) (hlinked : rx.entry.list.qlen = rx.entry.list.next.length) :
    (baRefreshReorderingMpdus rx).entry.list = {} ∧
      (baRefreshReorderingMpdus rx).entry.lastIndSeq = resetRcvSeq ∧
      (baRefreshReorderingMpdus rx).entry.session = rx.entry.session := by
  obtain ⟨hlist, hsess⟩ := refreshLoop_spec _ rx (Nat.le_of_eq hlinked.symm) hlinked
  exact ⟨hlist, rfl, hsess⟩

/-! ## 5. Inserting -/

/-- **The scan keeps the list in order.** It fails exactly on a number that is already there. -/
theorem insertsortedScan_spec {b w : Nat} (mpdu : ReorderingMpdu) (hw : w < 2048)
    (hpos : 0 < offset 4096 b mpdu.sequence) (hle : offset 4096 b mpdu.sequence ≤ w) :
    ∀ {l : List ReorderingMpdu}, InWindow 4096 b w (l.map fun m => m.sequence.val) →
      match insertsortedScan l mpdu with
      | none => mpdu.sequence.val ∈ l.map fun m => m.sequence.val
      | some l' =>
        InWindow 4096 b w (l'.map fun m => m.sequence.val) ∧ l'.length = l.length + 1 ∧
          ∀ s, s ∈ (l'.map fun m => m.sequence.val) ↔
            s = mpdu.sequence.val ∨ s ∈ l.map fun m => m.sequence.val
  | [], _ => by
    simp only [insertsortedScan, List.map_cons, List.map_nil, List.mem_singleton,
      List.not_mem_nil, or_false, implies_true, and_true, List.length_singleton, List.length_nil]
    exact InWindow.nil.cons hpos hle (by simp)
  | blk :: rest, hwin => by
    rw [List.map_cons] at hwin
    have hblk := hwin.le _ List.mem_cons_self
    unfold insertsortedScan
    by_cases hlt : offset 4096 b blk.sequence < offset 4096 b mpdu.sequence
    · -- scan on
      rw [if_pos (seqSmaller_of_offset_lt hlt (by omega))]
      have ih := insertsortedScan_spec mpdu hw hpos hle hwin.tail
      cases hscan : insertsortedScan rest mpdu with
      | none =>
        simp only [hscan] at ih
        simp only [Option.map_none, List.map_cons]
        exact List.mem_cons_of_mem _ ih
      | some l' =>
        simp only [hscan] at ih
        obtain ⟨hwin', hlen, hmem⟩ := ih
        simp only [Option.map_some, List.map_cons, List.length_cons, hlen, true_and]
        refine ⟨hwin'.cons (hwin.pos _ List.mem_cons_self) hblk ?_, ?_⟩
        · intro t ht
          rcases (hmem t).mp ht with rfl | ht
          · exact hlt
          · exact hwin.head_lt ht
        · intro s
          simp only [List.mem_cons, hmem]
          tauto
    · rw [if_neg (not_seqSmaller_of_offset_le (b := b) (Nat.le_of_not_lt hlt) (by omega))]
      by_cases heq : blk.sequence = mpdu.sequence
      · rw [if_pos heq]
        simp [heq]
      · -- found the position
        rw [if_neg heq]
        have hgt : offset 4096 b mpdu.sequence < offset 4096 b blk.sequence := by
          refine Nat.lt_of_le_of_ne (Nat.le_of_not_lt hlt) fun h => heq ?_
          exact Fin.ext (eq_of_offset_eq blk.sequence.isLt mpdu.sequence.isLt h.symm)
        simp only [List.map_cons, List.length_cons, List.mem_cons, implies_true, and_true]
        refine hwin.cons hpos hle fun t ht => ?_
        rcases List.mem_cons.mp ht with rfl | ht
        · exact hgt
        · have := hwin.head_lt ht
          omega

/-! ## 6. One frame on one entry -/

/-- `ba_enqueue_reordering_packet` cannot keep this frame: the pool is empty, or it is EAPOL. -/
def CannotBuffer (freelist : Nat) (blk : RxBlk) : Prop :=
  freelist = 0 ∨ blk.eap = true

instance (freelist : Nat) (blk : RxBlk) : Decidable (CannotBuffer freelist blk) :=
  inferInstanceAs (Decidable (_ ∨ _))

/-- **A frame that is buffered joins the list**, unless its number is there already. -/
theorem enqueue_buffered {rx : Rx} {blk : RxBlk} (hbuf : ¬ CannotBuffer rx.freelist blk)
    (hlinked : rx.entry.list.qlen = rx.entry.list.next.length)
    (hwin : InWindow 4096 rx.entry.lastIndSeq rx.entry.baWinSize.toNat rx.entry.keys)
    (hpos : 0 < offset 4096 rx.entry.lastIndSeq blk.sequence)
    (hle : offset 4096 rx.entry.lastIndSeq blk.sequence ≤ rx.entry.baWinSize.toNat) :
    let e := (baEnqueueReorderingPacket rx blk).entry
    e.list.qlen = e.list.next.length ∧ e.lastIndSeq = rx.entry.lastIndSeq ∧
      e.session = rx.entry.session ∧
      InWindow 4096 rx.entry.lastIndSeq rx.entry.baWinSize.toNat e.keys ∧
      ∀ s ∈ e.keys, s = blk.sequence.val ∨ s ∈ rx.entry.keys := by
  have hcond : (decide (0 < rx.freelist) && !blk.eap) = true := by
    simp only [CannotBuffer, not_or, Bool.not_eq_true] at hbuf
    simp [hbuf.2, Nat.pos_of_ne_zero hbuf.1]
  have hw := rx.entry.winSize_lt
  have hscan := insertsortedScan_spec (w := rx.entry.baWinSize.toNat)
    ⟨blk.pRxPacket, blk.sequence, blk.amsdu, blk.opMode⟩ (by omega) hpos hle hwin
  unfold baEnqueueReorderingPacket baReorderingMpduInsertsorted
  simp only [hcond, if_true]
  cases hins : insertsortedScan rx.entry.list.next
      ⟨blk.pRxPacket, blk.sequence, blk.amsdu, blk.opMode⟩ with
  | none =>
    simp only [Option.map_none]
    exact ⟨hlinked, rfl, rfl, hwin, fun s hs => .inr hs⟩
  | some l' =>
    simp only [hins] at hscan
    obtain ⟨hwin', hlen, hmem⟩ := hscan
    simp only [Option.map_some]
    refine ⟨?_, rfl, rfl, hwin', fun s hs => (hmem s).mp hs⟩
    simp only [Rx.setList]
    omega

/-- **A frame that cannot be buffered is indicated past the list**: everything up to it goes, it
becomes the last number, and what is left stays as it was -- whether or not it is now in order. -/
theorem enqueue_unbuffered {rx : Rx} {blk : RxBlk} (hbuf : CannotBuffer rx.freelist blk)
    (hlinked : rx.entry.list.qlen = rx.entry.list.next.length)
    (hwin : InWindow 4096 rx.entry.lastIndSeq rx.entry.baWinSize.toNat rx.entry.keys)
    (hle : offset 4096 rx.entry.lastIndSeq blk.sequence ≤ 2048) :
    let e := (baEnqueueReorderingPacket rx blk).entry
    e.list.qlen = e.list.next.length ∧ e.lastIndSeq = blk.sequence.val ∧
      e.session = rx.entry.session ∧
      InWindow 4096 blk.sequence rx.entry.baWinSize.toNat e.keys ∧
      ∀ s, s ∈ e.keys ↔ s ∈ rx.entry.keys ∧
        offset 4096 rx.entry.lastIndSeq blk.sequence < offset 4096 rx.entry.lastIndSeq s := by
  have hcond : ¬ (decide (0 < rx.freelist) && !blk.eap) = true := by
    rcases hbuf with h | h
    · simp [h]
    · simp [h]
  have hw := rx.entry.winSize_lt
  obtain ⟨hdr, hnext⟩ := leSeq_spec { rx with freelist := rx.freelist - 1 }
    (b := rx.entry.lastIndSeq) (w := rx.entry.baWinSize.toNat) (by omega) blk.sequence.isLt hle
    hlinked hwin
  have hkeys := keys_leSeq { rx with freelist := rx.freelist - 1 } (Nat.le_refl _)
    hwin hnext
  unfold baEnqueueReorderingPacket
  simp only [hcond]
  refine ⟨hdr.linked, rfl, hdr.session, ?_, fun s => ?_⟩
  · have := hkeys.1
    rw [← InWindow.base_mod (by decide), add_offset (by decide),
      Nat.mod_eq_of_lt blk.sequence.isLt] at this
    exact this
  · change s ∈ List.map _ _ ↔ s ∈ List.map _ _ ∧ _
    change s ∈ List.map _
      (baIndicateReorderingMpdusLeSeq { rx with freelist := rx.freelist - 1 } blk.sequence).entry.list.next
      ↔ _
    rw [hnext]
    simp only [List.mem_map, List.mem_filter, decide_eq_true_eq]
    constructor
    · rintro ⟨m, ⟨hm, hoff⟩, rfl⟩
      exact ⟨⟨m, hm, rfl⟩, hoff⟩
    · rintro ⟨⟨m, hm, rfl⟩, hoff⟩
      exact ⟨m, ⟨hm, hoff⟩, rfl⟩

/-- **The time-out flush keeps an entry settled.** -/
theorem flush_settled (hz : OsHz) (rx : Rx) (now : Ulong) (h : Settled rx.entry) :
    Settled (baFlushReorderingTimeoutMpdus hz rx now).entry ∧
      (baFlushReorderingTimeoutMpdus hz rx now).entry.session = rx.entry.session := by
  unfold baFlushReorderingTimeoutMpdus
  split
  · exact ⟨h, rfl⟩
  · rename_i hq
    split
    · -- flush all
      obtain ⟨hlist, hlast, hsess⟩ := refresh_spec rx h.linked
      refine ⟨Settled.of_empty ?_ ?_ (.inl hlast), hsess⟩ <;>
        simp [Rx.setLastIndSeqAtTimer, hlist]
    · split
      · -- flush one: nothing in the list is due at LastIndSeq + 1, so only the window moves
        have hne : rx.entry.list.next ≠ [] := by
          intro hnil
          exact hq (by rw [h.linked, hnil]; rfl)
        have hlt : rx.entry.lastIndSeq < 4096 :=
          h.last.resolve_left fun hr => hne (h.reset hr)
        have hw := rx.entry.winSize_lt
        have hoff : offset 4096 rx.entry.lastIndSeq ((rx.entry.lastIndSeq + 1) % 4096) = 1 := by
          rw [offset_mod (by decide), offset_add (by decide)]
        obtain ⟨hdr, hnext⟩ := leSeq_spec rx (by omega)
          (Nat.mod_lt (rx.entry.lastIndSeq + 1) (by decide)) (by rw [hoff]; omega) h.linked
          h.window
        rw [hoff] at hnext
        obtain ⟨hwin', -⟩ := keys_leSeq rx (Nat.le_refl 1) h.window hnext
        rw [and_maxSeq]
        rw [← InWindow.base_mod (by decide)] at hwin'
        obtain ⟨hset, hsess⟩ := indicateInOrderFrom_spec
          (((baIndicateReorderingMpdusLeSeq rx ((rx.entry.lastIndSeq + 1) % 4096)
            ).setLastIndSeqAtTimer now).setLastIndSeq ((rx.entry.lastIndSeq + 1) % 4096))
          (Nat.mod_lt _ (by decide)) rfl hdr.linked
          (congrArg UInt8.toNat hdr.baWinSize ▸ hwin')
        exact ⟨hset, hsess.trans hdr.session⟩
      · exact ⟨h, rfl⟩

/-- **A Block-Ack request keeps an entry settled**: everything up to its starting number is
indicated, and that number itself becomes the next one. -/
theorem bar_settled (rx : Rx) (start : SeqNo) (h : Settled rx.entry) :
    Settled (barOnEntry rx start).entry ∧
      (barOnEntry rx start).entry.session = rx.entry.session := by
  unfold barOnEntry
  split
  · rename_i hsm
    have hw := rx.entry.winSize_lt
    set last' : Nat := if start.val = 0 then maxSeq else start.val - 1 with hlast'
    have hlt : last' < 4096 := by
      have := start.isLt
      rw [hlast', maxSeq]
      split <;> omega
    rcases h.last with hreset | hlast
    · -- before the first frame the list is empty and only the number is set
      have hnil := h.reset hreset
      have hwin : InWindow 4096 start 0 rx.entry.keys := by
        simp [BaRecEntry.keys, hnil, InWindow.nil]
      obtain ⟨hdr, hnext⟩ := leSeq_spec rx (by decide) start.isLt
        (by rw [offset_self (by decide)]; omega) h.linked hwin
      rw [hnil, List.filter_nil] at hnext
      refine ⟨Settled.of_empty hnext ?_ (.inr hlt), hdr.session⟩
      have := hdr.linked
      rw [hnext] at this
      exact this
    · have hpre : 2048 ≤ offset 4096 start rx.entry.lastIndSeq := seqSmaller_iff.mp hsm
      set o := offset 4096 rx.entry.lastIndSeq start with ho
      have hne : 0 < o := by
        rcases Nat.eq_zero_or_pos o with h0 | hp
        · exfalso
          have : start.val = rx.entry.lastIndSeq := eq_of_offset_eq (b := rx.entry.lastIndSeq)
            start.isLt hlast (by rw [offset_self (by decide)]; exact h0)
          rw [this, offset_self (by decide)] at hpre
          omega
        · exact hp
      have hback := offset_between_back (N := 4096) (b := rx.entry.lastIndSeq)
        (s := rx.entry.lastIndSeq) (t := start) (by decide) (by rw [offset_self (by decide)]; omega)
      rw [offset_self (by decide)] at hback
      obtain ⟨hdr, hnext⟩ := leSeq_spec rx (w := rx.entry.baWinSize.toNat) (by omega) start.isLt
        (b := rx.entry.lastIndSeq) (by omega) h.linked h.window
      obtain ⟨hwin', hfar⟩ := keys_leSeq rx (k := o - 1) (by omega) h.window hnext
      -- the new LastIndSeq is one step short of the starting number
      have hbase : (rx.entry.lastIndSeq + (o - 1)) % 4096 = last' := by
        have hadd := add_offset (N := 4096) (b := rx.entry.lastIndSeq) (s := start) (by decide)
        have := start.isLt
        rw [hlast', maxSeq]
        split <;> omega
      rw [← InWindow.base_mod (by decide), hbase] at hwin'
      refine ⟨⟨Ordered.of_lt hdr.linked hlt (congrArg UInt8.toNat hdr.baWinSize) hwin', ?_⟩,
        hdr.session⟩
      · intro s hs
        have hs' := hfar s hs
        change 1 < offset 4096 last' s
        rw [← hbase, offset_base_mod (by decide), offset_advance (by decide) (by omega)]
        omega
  · exact ⟨h, rfl⟩

end Mt7601.Ba
