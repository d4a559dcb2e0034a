/-
# The numbers a session hands up advance

One session between two (re)starts, over any interleaving of frames, Block-Ack requests and
time-outs. The peer counts its frames without wrapping (`num`); the 12 bits of the header are the
low end of that count, and the receiver's `LastIndSeq` follows it (`Watched.next`, the number that is
due). As long as what the peer sends lies within half the sequence space of the window, what is
handed up has strictly increasing numbers -- unless one of four things happens (`Repeats`): a
Block-Ack request releases the very frame it starts at, a frame that cannot be buffered is itself
waiting already or strands its successor, or a time-out flushes the whole list.
-/
import Mt7601.Ba.Drain
import Mt7601.Ba.Runs

namespace Mt7601.Ba

open SeqNum

/-! ## 1. Operations on one session -/

/-- What happens to one session. A Block-Ack request starts at the peer's number `start`; other
sessions take blocks from the pool and give them back. -/
inductive SessionOp
  | frame (blk : RxBlk) (now32 : Ulong)
  | blockAckReq (start : Nat)
  | timeout (now32 : Ulong)
  | pool (freelist : Nat)

def sessionStep (hz : OsHz) (rx : Rx) : SessionOp → Rx
  | .frame blk now32 =>
    if !blk.amsdu ∧ maxRxPktLen < blk.dataSize then rx.note (.release blk.pRxPacket)
    else indicateOnEntry hz rx blk now32
  | .blockAckReq start => barOnEntry rx (Fin.ofNat 4096 start)
  | .timeout now32 => baFlushReorderingTimeoutMpdus hz rx now32
  | .pool freelist => { rx with freelist := freelist }

section

variable {hz : OsHz} {ad : Adapter} {wcid idx : Nat} {tid : Fin 16}

end

/-! ## 2. The peer's numbers -/

/-- The packets handed up, in order. -/
def indicated (log : List Disposal) : List Packet :=
  log.filterMap fun
    | .announce mpdu => some mpdu.pPacket
    | .legacy blk => some blk.pRxPacket
    | .release _ => none

theorem indicated_append (log log' : List Disposal) :
    indicated (log ++ log') = indicated log ++ indicated log' :=
  List.filterMap_append

theorem indicated_announce (front : List ReorderingMpdu) :
    indicated (front.map .announce) = front.map ReorderingMpdu.pPacket := by
  induction front with
  | nil => rfl
  | cons m front ih =>
    rw [List.map_cons, List.map_cons, ← ih]
    rfl

variable (num : Packet → Nat)

/-- **The numbers handed up strictly advance.** -/
def Advancing (rx : Rx) : Prop :=
  ((indicated rx.log).map num).Pairwise (· < ·)

/-- What was handed up lies below the number that is due, and advances. -/
structure Sent (next : Nat) (rx : Rx) : Prop where
  below : ∀ p ∈ indicated rx.log, num p < next
  advancing : Advancing num rx

/-- **The entry stands at `next`**: `LastIndSeq` is the number before it, and each waiting frame is
as far ahead of `LastIndSeq` as the peer's number is ahead of `next`. -/
structure Placed (next : Nat) (e : BaRecEntry) : Prop where
  last : e.lastIndSeq < 4096
  anchor : (e.lastIndSeq + 1) % 4096 = next % 4096
  waiting : ∀ m ∈ e.list.next, num m.pPacket + 1 = next + offset 4096 e.lastIndSeq m.sequence

/-- A session that has had its first frame. -/
structure Stands (next : Nat) (rx : Rx) : Prop where
  settled : Settled rx.entry
  win : 0 < rx.entry.baWinSize.toNat
  placed : Placed num next rx.entry
  sent : Sent num next rx

variable {num}

/-- The offset of a number that is not far behind and not far ahead of the one that is due. -/
theorem offset_of_num {last next n : Nat} (hanchor : (last + 1) % 4096 = next % 4096)
    (hge : next ≤ n + 1) (hlt : n + 1 < next + 4096) :
    offset 4096 last (n % 4096) = n + 1 - next := by
  have hn : (last + (n + 1 - next)) % 4096 = n % 4096 := by omega
  rw [← hn, offset_mod (by decide), offset_add (by omega)]

theorem offset_of_num_behind {last next n : Nat} (hanchor : (last + 1) % 4096 = next % 4096)
    (hlt : n + 1 < next) (hge : next ≤ n + 2048) :
    2048 ≤ offset 4096 last (n % 4096) := by
  have hn : (last + (4096 + n + 1 - next)) % 4096 = n % 4096 := by omega
  rw [← hn, offset_mod (by decide), offset_add (by omega)]
  omega

/-- **A number within half the sequence space that is not old** is as far ahead as its offset. -/
theorem num_of_offset {last next n w : Nat} (hanchor : (last + 1) % 4096 = next % 4096)
    (hlow : next ≤ n + 2048) (hhigh : n < next + w + 2048) (hw : w < 256)
    (hpos : 0 < offset 4096 last (n % 4096)) (hoff : offset 4096 last (n % 4096) < 2048) :
    n + 1 = next + offset 4096 last (n % 4096) := by
  by_cases hge : next ≤ n + 1
  · rw [offset_of_num hanchor hge (by omega)]
    omega
  · have hbehind := offset_of_num_behind hanchor (by omega) hlow
    omega

section

variable {next k : Nat} {rx rx' : Rx}

/-- Nothing is handed up, and the number that is due does not fall back. -/
theorem Sent.mono (h : Sent num next rx) (hlog : indicated rx'.log = indicated rx.log)
    {next' : Nat} (hle : next ≤ next') : Sent num next' rx' where
  below := by
    intro p hp
    rw [hlog] at hp
    exact Nat.lt_of_lt_of_le (h.below p hp) hle
  advancing := by
    rw [Advancing, hlog]
    exact h.advancing

/-- **Handing up a run of numbers** that starts at or behind the one that is due. -/
theorem Sent.append (h : Sent num next rx) (ps : List Packet)
    (hlog : indicated rx'.log = indicated rx.log ++ ps) {next' : Nat} (hle : next ≤ next')
    (hsorted : (ps.map num).Pairwise (· < ·))
    (hrange : ∀ p ∈ ps, next ≤ num p ∧ num p < next') : Sent num next' rx' where
  below := by
    intro p hp
    rw [hlog] at hp
    rcases List.mem_append.mp hp with hold | hnew
    · exact Nat.lt_of_lt_of_le (h.below p hold) hle
    · exact (hrange p hnew).2
  advancing := by
    rw [Advancing, hlog, List.map_append]
    refine List.pairwise_append.mpr ⟨h.advancing, hsorted, fun a ha b hb => ?_⟩
    obtain ⟨p, hp, rfl⟩ := List.mem_map.mp ha
    obtain ⟨q, hq, rfl⟩ := List.mem_map.mp hb
    exact Nat.lt_of_lt_of_le (h.below p hp) (hrange q hq).1

/-- Handing up one packet directly. -/
theorem Sent.legacy {blk : RxBlk} (h : Sent num next rx)
    (hlog : rx'.log = rx.log ++ [.legacy blk]) (hge : next ≤ num blk.pRxPacket) :
    Sent num (num blk.pRxPacket + 1) rx' := by
  refine h.append [blk.pRxPacket] ?_ (by omega) ?_ ?_
  · rw [hlog, indicated_append]
    rfl
  · exact List.pairwise_singleton _ _
  · intro p hp
    rw [List.mem_singleton.mp hp]
    omega

/-- The waiting numbers, from the head of the list on. -/
theorem Placed.sorted {e : BaRecEntry} {w : Nat} (h : Placed num next e)
    (hwin : InWindow 4096 e.lastIndSeq w e.keys) :
    ((e.list.next.map ReorderingMpdu.pPacket).map num).Pairwise (· < ·) := by
  rw [List.map_map, List.pairwise_map]
  have hkeys := hwin.sorted
  rw [BaRecEntry.keys, List.pairwise_map] at hkeys
  refine hkeys.imp_of_mem fun {m m'} hm hm' hlt => ?_
  have hn := h.waiting m hm
  have hn' := h.waiting m' hm'
  simp only [Function.comp_apply]
  omega

/-- **Taking a front off the list.** The front advances by at most `k`, so the number that is due may
move on by `k`. -/
theorem Sent.took {front : List ReorderingMpdu} {w : Nat} (h : Sent num next rx)
    (hplaced : Placed num next rx.entry)
    (hwin : InWindow 4096 rx.entry.lastIndSeq w rx.entry.keys) (htook : Took rx rx' front)
    (hfront : ∀ m ∈ front, offset 4096 rx.entry.lastIndSeq m.sequence ≤ k) :
    Sent num (next + k) rx' := by
  refine h.append (front.map ReorderingMpdu.pPacket) ?_ (by omega) ?_ ?_
  · rw [htook.log, indicated_append, indicated_announce]
  · have hsorted := hplaced.sorted hwin
    rw [htook.next, List.map_append, List.map_append] at hsorted
    exact (List.pairwise_append.mp hsorted).1
  · intro p hp
    obtain ⟨m, hm, rfl⟩ := List.mem_map.mp hp
    have hmem : m ∈ rx.entry.list.next := by
      rw [htook.next]
      exact List.mem_append_left _ hm
    have hn := hplaced.waiting m hmem
    have hpos := hwin.pos m.sequence (List.mem_map.mpr ⟨m, hmem, rfl⟩)
    have hle := hfront m hm
    omega

/-- **Moving `LastIndSeq` on by `k`**, not past anything that is still waiting. -/
theorem Placed.move {e e' : BaRecEntry} (h : Placed num next e)
    (hlast : e'.lastIndSeq = (e.lastIndSeq + k) % 4096)
    (hnext : ∀ m ∈ e'.list.next, num m.pPacket + 1 = next + offset 4096 e.lastIndSeq m.sequence ∧
      k ≤ offset 4096 e.lastIndSeq m.sequence) : Placed num (next + k) e' where
  last := by
    rw [hlast]
    exact Nat.mod_lt _ (by decide)
  anchor := by
    have hanchor := h.anchor
    rw [hlast, Nat.mod_add_mod]
    omega
  waiting := by
    intro m hm
    obtain ⟨hn, hle⟩ := hnext m hm
    rw [hlast, offset_base_mod (by decide), offset_advance (by decide) hle]
    omega

end

/-! ## 3. What each function moves -/

variable (num) in
/-- **The session has moved on by `k` numbers**, and what was handed up on the way lies among them. -/
structure Moved (next k : Nat) (rx rx' : Rx) : Prop where
  last : rx'.entry.lastIndSeq = (rx.entry.lastIndSeq + k) % 4096
  placed : Placed num (next + k) rx'.entry
  sent : Sent num (next + k) rx'

section

variable {next k : Nat} {rx rx' rx'' : Rx}

theorem Moved.trans {k' : Nat} (h : Moved num next k rx rx') (h' : Moved num (next + k) k' rx' rx'') :
    Moved num next (k + k') rx rx'' where
  last := by rw [h'.last, h.last, Nat.mod_add_mod, Nat.add_assoc]
  placed := by rw [← Nat.add_assoc]; exact h'.placed
  sent := by rw [← Nat.add_assoc]; exact h'.sent

/-- What is set of the timer and the counters does not move the session. -/
theorem Moved.congr (rx'' : Rx) (h : Moved num next k rx rx') (hlist : rx''.entry.list = rx'.entry.list)
    (hlast : rx''.entry.lastIndSeq = rx'.entry.lastIndSeq)
    (hlog : indicated rx''.log = indicated rx'.log) : Moved num next k rx rx'' where
  last := hlast.trans h.last
  placed :=
    ⟨hlast ▸ h.placed.last, hlast ▸ h.placed.anchor, by rw [hlist, hlast]; exact h.placed.waiting⟩
  sent := h.sent.mono hlog (Nat.le_refl _)

theorem Moved.stay (hplaced : Placed num next rx.entry) (hsent : Sent num next rx) :
    Moved num next 0 rx rx where
  last := (Nat.mod_eq_of_lt hplaced.last).symm
  placed := hplaced
  sent := hsent

/-- The distance the session has moved, read off `LastIndSeq`. -/
theorem Moved.offset (h : Moved num next k rx rx') (hk : k < 4096) :
    SeqNum.offset 4096 rx.entry.lastIndSeq rx'.entry.lastIndSeq = k := by
  rw [h.last, offset_mod (by decide), offset_add hk]

variable (rx) in
/-- **Draining up to a number** takes exactly what is no farther ahead. -/
theorem leSeq_front {seq b w : Nat} (hlinked : rx.entry.list.qlen = rx.entry.list.next.length)
    (hwin : InWindow 4096 b w rx.entry.keys) (hw : w < 256) (hseq : seq < 4096)
    (hoff : offset 4096 b seq ≤ 2048) :
    ∃ front, Took rx (baIndicateReorderingMpdusLeSeq rx seq) front ∧
      (∀ m ∈ front, offset 4096 b m.sequence ≤ offset 4096 b seq) ∧
      ∀ m ∈ (baIndicateReorderingMpdusLeSeq rx seq).entry.list.next,
        m ∈ rx.entry.list.next ∧ offset 4096 b seq < offset 4096 b m.sequence := by
  obtain ⟨-, front, htook⟩ := leSeq_took rx hlinked seq
  obtain ⟨-, hnext⟩ := leSeq_spec rx (by omega) hseq hoff hlinked hwin
  refine ⟨front, htook, fun m hm => ?_, fun m hm => ?_⟩
  · by_contra hfar
    -- what is farther away stays, and the front is not among what stays
    have hsplit := htook.next
    rw [hnext] at hsplit
    have hfilter := congrArg (List.filter fun m : ReorderingMpdu =>
      decide (offset 4096 b seq < offset 4096 b m.sequence)) hsplit
    rw [List.filter_append, List.filter_filter] at hfilter
    simp only [Bool.and_self] at hfilter
    have hnil := List.append_left_eq_self.mp hfilter.symm
    exact List.filter_eq_nil_iff.mp hnil m hm (decide_eq_true (Nat.lt_of_not_le hfar))
  · rw [hnext] at hm
    obtain ⟨hmem, hfar⟩ := List.mem_filter.mp hm
    exact ⟨hmem, of_decide_eq_true hfar⟩

/-- **Draining up to a number**, and setting `LastIndSeq` to it or to a number before it that leaves
nothing in between. -/
theorem leSeq_moved {seq w : Nat} (hplaced : Placed num next rx.entry) (hsent : Sent num next rx)
    (hlinked : rx.entry.list.qlen = rx.entry.list.next.length)
    (hwin : InWindow 4096 rx.entry.lastIndSeq w rx.entry.keys) (hw : w < 256) (hseq : seq < 4096)
    (hoff : offset 4096 rx.entry.lastIndSeq seq ≤ 2048)
    (hk : k ≤ offset 4096 rx.entry.lastIndSeq seq)
    (hbetween : ∀ s ∈ rx.entry.keys, offset 4096 rx.entry.lastIndSeq s ≤
      offset 4096 rx.entry.lastIndSeq seq → offset 4096 rx.entry.lastIndSeq s ≤ k)
    (hlist : rx'.entry.list = (baIndicateReorderingMpdusLeSeq rx seq).entry.list)
    (hlog : rx'.log = (baIndicateReorderingMpdusLeSeq rx seq).log)
    (hlast : rx'.entry.lastIndSeq = (rx.entry.lastIndSeq + k) % 4096) :
    Moved num next k rx rx' := by
  obtain ⟨front, htook, hfront, hrest⟩ := leSeq_front _ hlinked hwin hw hseq hoff
  have hsent' : Sent num (next + k) (baIndicateReorderingMpdusLeSeq rx seq) := by
    refine hsent.took hplaced hwin htook fun m hm => ?_
    have hmem : m ∈ rx.entry.list.next := by
      rw [htook.next]
      exact List.mem_append_left _ hm
    exact hbetween _ (List.mem_map.mpr ⟨m, hmem, rfl⟩) (hfront m hm)
  refine ⟨hlast, hplaced.move hlast fun m hm => ?_, hsent'.mono (by rw [hlog])
    (Nat.le_refl _)⟩
  rw [hlist] at hm
  obtain ⟨hmem, hfar⟩ := hrest m hm
  exact ⟨hplaced.waiting m hmem, by omega⟩

theorem following_mem {start : Nat} {front : List ReorderingMpdu} (h : following start front) :
    ∀ m ∈ front, ∃ j < front.length, m.sequence.val = (start + (j + 1)) % 4096 := by
  induction front generalizing start with
  | nil => exact fun m hm => absurd hm List.not_mem_nil
  | cons blk rest ih =>
    intro m hm
    rcases List.mem_cons.mp hm with rfl | hm
    · exact ⟨0, Nat.succ_pos _, h.1⟩
    · obtain ⟨j, hj, hseq⟩ := ih h.2 m hm
      refine ⟨j + 1, Nat.succ_lt_succ hj, ?_⟩
      rw [hseq]
      congr 1
      omega

/-- The last of a run of numbers. -/
theorem following_last {start : Nat} {front : List ReorderingMpdu} (h : following start front)
    (hne : front ≠ []) :
    ∃ m ∈ front, m.sequence.val = (start + front.length) % 4096 := by
  induction front generalizing start with
  | nil => exact absurd rfl hne
  | cons blk rest ih =>
    cases rest with
    | nil => exact ⟨blk, List.mem_cons_self, h.1⟩
    | cons blk' rest =>
      obtain ⟨m, hm, hseq⟩ := ih h.2 (List.cons_ne_nil _ _)
      refine ⟨m, List.mem_cons_of_mem _ hm, ?_⟩
      rw [hseq, List.length_cons (a := blk)]
      congr 1
      omega

/-- **Indicating in order** moves the session by as many numbers as it hands up. -/
theorem inOrder_moved {w : Nat} (hplaced : Placed num next rx.entry) (hsent : Sent num next rx)
    (hlinked : rx.entry.list.qlen = rx.entry.list.next.length)
    (hwin : InWindow 4096 rx.entry.lastIndSeq w rx.entry.keys) (hw : w < 256) :
    ∃ k ≤ w, Moved num next k rx (indicateInOrderFrom rx rx.entry.lastIndSeq) := by
  obtain ⟨front, htook, hfollow, hlast⟩ := indicateInOrderFrom_took _ hlinked rx.entry.lastIndSeq
  have hsub : front.Sublist rx.entry.list.next := by
    rw [htook.next]
    exact List.sublist_append_left _ _
  have hlen : front.length ≤ w := by
    have hfront := (hwin.sublist (hsub.map fun m => m.sequence.val)).length_le
    rwa [List.length_map] at hfront
  have hlast' : (indicateInOrderFrom rx rx.entry.lastIndSeq).entry.lastIndSeq =
      (rx.entry.lastIndSeq + front.length) % 4096 := by
    rw [hlast]
    split
    · rename_i hnil
      rw [hnil, List.length_nil, Nat.add_zero, Nat.mod_eq_of_lt hplaced.last]
    · rfl
  refine ⟨front.length, hlen, hlast', hplaced.move hlast' fun m hm => ?_,
    hsent.took hplaced hwin htook fun m hm => ?_⟩
  · have hmem : m ∈ rx.entry.list.next := by
      rw [htook.next]
      exact List.mem_append_right _ hm
    refine ⟨hplaced.waiting m hmem, ?_⟩
    by_cases hnil : front = []
    · rw [hnil]
      exact Nat.zero_le _
    · -- the list is in order, so what stays is behind the last one taken
      obtain ⟨m', hm', hseq⟩ := following_last hfollow hnil
      have hsorted := hwin.sorted
      rw [BaRecEntry.keys, htook.next, List.map_append] at hsorted
      have hlt := (List.pairwise_append.mp hsorted).2.2 m'.sequence.val
        (List.mem_map.mpr ⟨m', hm', rfl⟩) m.sequence.val (List.mem_map.mpr ⟨m, hm, rfl⟩)
      rw [hseq, offset_mod (by decide), offset_add (by omega)] at hlt
      exact Nat.le_of_lt hlt
  · obtain ⟨j, hj, hseq⟩ := following_mem hfollow m hm
    rw [hseq, offset_mod (by decide), offset_add (by omega)]
    omega

/-- **A frame that is buffered** moves nothing. -/
theorem enqueue_buffered_moved {blk : RxBlk} (hplaced : Placed num next rx.entry)
    (hsent : Sent num next rx) (hbuf : ¬ CannotBuffer rx.freelist blk)
    (hnum : num blk.pRxPacket + 1 = next + offset 4096 rx.entry.lastIndSeq blk.sequence) :
    Moved num next 0 rx (baEnqueueReorderingPacket rx blk) := by
  have hcond : (decide (0 < rx.freelist) && !blk.eap) = true := by
    rw [CannotBuffer, not_or, Bool.not_eq_true] at hbuf
    rw [hbuf.2, decide_eq_true (Nat.pos_of_ne_zero hbuf.1)]
    rfl
  have hlast : rx.entry.lastIndSeq = (rx.entry.lastIndSeq + 0) % 4096 :=
    (Nat.mod_eq_of_lt hplaced.last).symm
  rw [baEnqueueReorderingPacket]
  dsimp only
  rw [if_pos hcond, baReorderingMpduInsertsorted]
  cases hscan : insertsortedScan rx.entry.list.next
      ⟨blk.pRxPacket, blk.sequence, blk.amsdu, blk.opMode⟩ with
  | none =>
    refine (Moved.stay hplaced hsent).congr _ rfl rfl ?_
    change indicated (rx.log ++ [.release blk.pRxPacket]) = _
    rw [indicated_append]
    exact List.append_nil _
  | some next' =>
    refine ⟨hlast, hplaced.move hlast fun m hm => ?_, hsent.below, hsent.advancing⟩
    rcases List.mem_cons.mp ((perm_insertsortedScan hscan).subset hm) with rfl | hm
    · exact ⟨hnum, Nat.zero_le _⟩
    · exact ⟨hplaced.waiting m hm, Nat.zero_le _⟩

/-- **A frame that cannot be buffered** moves the session to its own number, which must not wait in
the list itself. -/
theorem enqueue_unbuffered_moved {blk : RxBlk} {w : Nat} (hplaced : Placed num next rx.entry)
    (hsent : Sent num next rx) (hlinked : rx.entry.list.qlen = rx.entry.list.next.length)
    (hwin : InWindow 4096 rx.entry.lastIndSeq w rx.entry.keys) (hw : w < 256)
    (hbuf : CannotBuffer rx.freelist blk) (hdup : blk.sequence.val ∉ rx.entry.keys)
    (hpos : 0 < offset 4096 rx.entry.lastIndSeq blk.sequence)
    (hoff : offset 4096 rx.entry.lastIndSeq blk.sequence ≤ 2048)
    (hnum : num blk.pRxPacket + 1 = next + offset 4096 rx.entry.lastIndSeq blk.sequence) :
    Moved num next (offset 4096 rx.entry.lastIndSeq blk.sequence) rx
      (baEnqueueReorderingPacket rx blk) := by
  have hcond : ¬ (decide (0 < rx.freelist) && !blk.eap) = true := by
    rcases hbuf with hfree | heap
    · simp [hfree]
    · simp [heap]
  obtain ⟨front, htook, hfront, hrest⟩ := leSeq_front { rx with freelist := rx.freelist - 1 }
    hlinked hwin hw blk.sequence.isLt hoff
  have hlast : blk.sequence.val =
      (rx.entry.lastIndSeq + offset 4096 rx.entry.lastIndSeq blk.sequence) % 4096 := by
    rw [add_offset (by decide), Nat.mod_eq_of_lt blk.sequence.isLt]
  -- everything that is handed up before the frame lies before it
  have hbefore : Sent num (next + (offset 4096 rx.entry.lastIndSeq blk.sequence - 1))
      (baIndicateReorderingMpdusLeSeq { rx with freelist := rx.freelist - 1 } blk.sequence) := by
    have hsent' : Sent num next { rx with freelist := rx.freelist - 1 } :=
      ⟨hsent.below, hsent.advancing⟩
    refine hsent'.took hplaced hwin htook fun m hm => ?_
    have hmem : m ∈ rx.entry.list.next := by
      have hnext := htook.next
      dsimp only at hnext
      rw [hnext]
      exact List.mem_append_left _ hm
    have hne : offset 4096 rx.entry.lastIndSeq m.sequence ≠
        offset 4096 rx.entry.lastIndSeq blk.sequence := by
      intro heq
      refine hdup (List.mem_map.mpr ⟨m, hmem, ?_⟩)
      exact eq_of_offset_eq m.sequence.isLt blk.sequence.isLt heq
    have hle := hfront m hm
    change offset 4096 rx.entry.lastIndSeq m.sequence ≤ _
    omega
  rw [baEnqueueReorderingPacket]
  dsimp only
  rw [if_neg hcond]
  refine ⟨hlast, hplaced.move hlast fun m hm => ?_, ?_⟩
  · obtain ⟨hmem, hfar⟩ := hrest m hm
    exact ⟨hplaced.waiting m hmem, Nat.le_of_lt hfar⟩
  · rw [← hnum]
    exact hbefore.legacy rfl (by omega)

/-! ## 4. One operation -/

/-- A Block-Ack request that does not start at a waiting frame. -/
theorem bar_moved (start : SeqNo) (h : Stands num next rx)
    (hfree : seqSmaller rx.entry.lastIndSeq start maxSeq = true → start.val ∉ rx.entry.keys) :
    ∃ k < 4096, Moved num next k rx (barOnEntry rx start) := by
  have hw := rx.entry.winSize_lt
  have hlt := h.placed.last
  rw [barOnEntry]
  split
  · rename_i hsm
    have hpre : 2048 ≤ offset 4096 start rx.entry.lastIndSeq := seqSmaller_iff.mp hsm
    have hne : start.val ≠ rx.entry.lastIndSeq := by
      intro heq
      rw [heq, offset_self (by decide)] at hpre
      omega
    have hpos : 0 < offset 4096 rx.entry.lastIndSeq start := by
      refine Nat.pos_of_ne_zero fun h0 => hne ?_
      refine eq_of_offset_eq (b := rx.entry.lastIndSeq) start.isLt hlt ?_
      rw [h0, offset_self (by decide)]
    have hback := offset_between_back (N := 4096) (b := rx.entry.lastIndSeq)
      (s := rx.entry.lastIndSeq) (t := start) (by decide) (by rwa [offset_self (by decide)])
    rw [offset_self (by decide)] at hback
    have hstart := add_offset (N := 4096) (b := rx.entry.lastIndSeq) (s := start) (by decide)
    have hlast : (if start.val = 0 then maxSeq else start.val - 1) =
        (rx.entry.lastIndSeq + (offset 4096 rx.entry.lastIndSeq start - 1)) % 4096 := by
      have hstartlt := start.isLt
      rw [maxSeq]
      split <;> omega
    refine ⟨offset 4096 rx.entry.lastIndSeq start - 1, ?_, ?_⟩
    · have hoff := offset_lt (b := rx.entry.lastIndSeq) (s := start.val) (show 0 < 4096 by decide)
      omega
    · refine leSeq_moved h.placed h.sent h.settled.linked h.settled.window hw start.isLt (by omega)
        (by omega) (fun s hs hle => ?_) rfl rfl hlast
      -- the starting number itself does not wait
      have hnot : offset 4096 rx.entry.lastIndSeq s ≠ offset 4096 rx.entry.lastIndSeq start := by
        intro heq
        have hval := eq_of_offset_eq (BaRecEntry.lt_of_mem_keys hs) start.isLt heq
        exact hfree hsm (hval ▸ hs)
      omega
  · exact ⟨0, by decide, Moved.stay h.placed h.sent⟩

/-- A time-out that does not flush the whole list. -/
theorem flush_moved {hz : OsHz} (now : Ulong) (h : Stands num next rx)
    (hall : flushAllDue hz rx.entry now = false) :
    ∃ k < 4096, Moved num next k rx (baFlushReorderingTimeoutMpdus hz rx now) := by
  have hw := rx.entry.winSize_lt
  rw [baFlushReorderingTimeoutMpdus]
  split
  · exact ⟨0, by decide, Moved.stay h.placed h.sent⟩
  · rw [hall, if_neg Bool.false_ne_true]
    split
    · -- the window moves by one number, and then as far as it is filled
      have hoff : offset 4096 rx.entry.lastIndSeq ((rx.entry.lastIndSeq + 1) % 4096) = 1 := by
        rw [offset_mod (by decide), offset_add (by decide)]
      have hlt := Nat.mod_lt (rx.entry.lastIndSeq + 1) (show 0 < 4096 by decide)
      rw [and_maxSeq]
      have hmoved : Moved num next 1 rx (((baIndicateReorderingMpdusLeSeq rx
          ((rx.entry.lastIndSeq + 1) % 4096)).setLastIndSeqAtTimer now).setLastIndSeq
            ((rx.entry.lastIndSeq + 1) % 4096)) := by
        refine leSeq_moved h.placed h.sent h.settled.linked h.settled.window hw hlt
          (by rw [hoff]; omega) (by rw [hoff]) (fun s hs hle => ?_) rfl rfl rfl
        rw [hoff] at hle
        exact hle
      obtain ⟨hdr, hnext⟩ := leSeq_spec rx (by omega) hlt (by rw [hoff]; omega) h.settled.linked
        h.settled.window
      rw [hoff] at hnext
      obtain ⟨hwin', -⟩ := keys_leSeq rx (Nat.le_refl 1) h.settled.window hnext
      rw [← InWindow.base_mod (by decide)] at hwin'
      obtain ⟨k, hk, hin⟩ := inOrder_moved hmoved.placed hmoved.sent hdr.linked hwin' hw
      exact ⟨1 + k, by omega, hmoved.trans hin⟩
    · exact ⟨0, by decide, Moved.stay h.placed h.sent⟩

/-- **A frame beyond the window**: the window moves so that it ends with the frame. -/
theorem enqueue_beyond_moved {blk : RxBlk} {now : Ulong} (h : Stands num next rx)
    (hbeyond : rx.entry.baWinSize.toNat < offset 4096 rx.entry.lastIndSeq blk.sequence)
    (hoff : offset 4096 rx.entry.lastIndSeq blk.sequence < 2048)
    (hnum : num blk.pRxPacket + 1 = next + offset 4096 rx.entry.lastIndSeq blk.sequence) :
    let tmpSeq : Int := (blk.sequence.val : Int) - rx.entry.baWinSize.toNat - 1
    let tmpSeq := if tmpSeq < 0 then maxSeq + 1 + tmpSeq else tmpSeq
    let winStartSeq := (tmpSeq + 1).toNat &&& maxSeq
    let rx₁ := ((baIndicateReorderingMpdusLeSeq rx winStartSeq).setLastIndSeq
      winStartSeq).setLastIndSeqAtTimer now
    let rx₂ := baEnqueueReorderingPacket rx₁ blk
    ∃ k < 4096, Moved num next k rx (indicateInOrderFrom rx₂ rx₂.entry.lastIndSeq) := by
  have hw := rx.entry.winSize_lt
  have hwin := h.win
  have hstart := winStartSeq_eq blk.sequence.isLt hw
  dsimp only at hstart ⊢
  rw [hstart]
  set W := rx.entry.baWinSize.toNat with hW
  set o := offset 4096 rx.entry.lastIndSeq blk.sequence with ho
  set winStartSeq := (blk.sequence.val + 4096 - W) % 4096 with hdef
  set rx₁ := ((baIndicateReorderingMpdusLeSeq rx winStartSeq).setLastIndSeq
    winStartSeq).setLastIndSeqAtTimer now with hrx₁
  -- the new start is `o - W` numbers ahead of the old one
  have hstartlt : winStartSeq < 4096 := Nat.mod_lt _ (by decide)
  have hstart' : winStartSeq = (rx.entry.lastIndSeq + (o - W)) % 4096 := by
    have hadd := add_offset (N := 4096) (b := rx.entry.lastIndSeq) (s := blk.sequence) (by decide)
    have hlt := blk.sequence.isLt
    omega
  have hstartoff : offset 4096 rx.entry.lastIndSeq winStartSeq = o - W := by
    rw [hstart', offset_mod (by decide), offset_add (by omega)]
  have hmoved : Moved num next (o - W) rx rx₁ := by
    refine leSeq_moved h.placed h.sent h.settled.linked h.settled.window hw hstartlt
      (by omega) (Nat.le_of_eq hstartoff.symm) (fun s hs hle => ?_) rfl rfl hstart'
    rw [hstartoff] at hle
    exact hle
  obtain ⟨hdr, hnext⟩ := leSeq_spec rx (w := W) (by omega) hstartlt (by omega) h.settled.linked
    h.settled.window
  obtain ⟨hwin₁, -⟩ := keys_leSeq rx (Nat.le_of_eq hstartoff.symm) h.settled.window hnext
  rw [← InWindow.base_mod (by decide), ← hstart'] at hwin₁
  have hlinked₁ : rx₁.entry.list.qlen = rx₁.entry.list.next.length := hdr.linked
  have hwsz₁ : rx₁.entry.baWinSize.toNat = W := congrArg UInt8.toNat hdr.baWinSize
  have hlast₁ : rx₁.entry.lastIndSeq = winStartSeq := rfl
  have hoff₁ : offset 4096 rx₁.entry.lastIndSeq blk.sequence = W := by
    rw [hlast₁, hstart', offset_base_mod (by decide), offset_advance (by decide) (by omega)]
    omega
  have hin₁ : InWindow 4096 rx₁.entry.lastIndSeq rx₁.entry.baWinSize.toNat rx₁.entry.keys := by
    rw [hwsz₁]
    exact hwin₁
  have hnum₁ : num blk.pRxPacket + 1 =
      next + (o - W) + offset 4096 rx₁.entry.lastIndSeq blk.sequence := by
    rw [hoff₁]
    omega
  by_cases hbuf : CannotBuffer rx₁.freelist blk
  · have hdup : blk.sequence.val ∉ rx₁.entry.keys := by
      -- what is left was in the old window
      intro hin
      obtain ⟨m, hm, hmseq⟩ := List.mem_map.mp hin
      change m ∈ (baIndicateReorderingMpdusLeSeq rx winStartSeq).entry.list.next at hm
      rw [hnext] at hm
      have hold := h.settled.window.le _ (List.mem_map.mpr ⟨m, (List.mem_filter.mp hm).1, rfl⟩)
      rw [hmseq] at hold
      omega
    have henq := enqueue_unbuffered_moved hmoved.placed hmoved.sent hlinked₁ hin₁
      (by rw [hwsz₁]; exact hw) hbuf hdup (by omega) (by omega) hnum₁
    obtain ⟨hlinked₂, hlast₂, hsess₂, hwin₂, -⟩ :=
      enqueue_unbuffered hbuf hlinked₁ hin₁ (by omega)
    obtain ⟨k, hk, hin⟩ := inOrder_moved (w := W) henq.placed henq.sent hlinked₂
      (by rw [hlast₂, ← hwsz₁]; exact hwin₂) hw
    exact ⟨o - W + offset 4096 rx₁.entry.lastIndSeq blk.sequence + k, by omega,
      (hmoved.trans henq).trans (by rw [← Nat.add_assoc]; exact hin)⟩
  · have henq := enqueue_buffered_moved hmoved.placed hmoved.sent hbuf hnum₁
    obtain ⟨hlinked₂, hlast₂, hsess₂, hwin₂, -⟩ :=
      enqueue_buffered hbuf hlinked₁ hin₁ (by omega) (by omega)
    obtain ⟨k, hk, hin⟩ := inOrder_moved (w := W) henq.placed henq.sent hlinked₂
      (by rw [hlast₂, ← hwsz₁]; exact hwin₂) hw
    exact ⟨o - W + 0 + k, by omega, (hmoved.trans henq).trans hin⟩

/-- The frame cannot be buffered, and its number waits in the list already. -/
def Doubles (rx : Rx) (blk : RxBlk) : Prop :=
  CannotBuffer rx.freelist blk ∧ blk.sequence.val ∈ rx.entry.keys

/-- **A frame that is not the first of the session.** -/
theorem indicateBySequence_moved {blk : RxBlk} (now : Ulong) (h : Stands num next rx)
    (hseq : blk.sequence.val = num blk.pRxPacket % 4096)
    (hlow : next ≤ num blk.pRxPacket + 2048)
    (hhigh : num blk.pRxPacket < next + rx.entry.baWinSize.toNat + 2048)
    (hdup : ¬ Doubles rx blk) : ∃ k < 4096, Moved num next k rx (indicateBySequence rx blk now) := by
  have hw := rx.entry.winSize_lt
  have hlast := h.placed.last
  have hreset : rx.entry.lastIndSeq ≠ resetRcvSeq := by
    rw [resetRcvSeq]
    omega
  have hnum : 0 < offset 4096 rx.entry.lastIndSeq blk.sequence →
      offset 4096 rx.entry.lastIndSeq blk.sequence < 2048 →
      num blk.pRxPacket + 1 = next + offset 4096 rx.entry.lastIndSeq blk.sequence := by
    rw [hseq]
    exact num_of_offset h.placed.anchor hlow hhigh hw
  rw [indicateBySequence]
  dsimp only
  rw [if_neg hreset]
  split
  · -- I. in order
    rename_i hone
    have heq := seqStepOne_iff.mp hone
    have hoff : offset 4096 rx.entry.lastIndSeq blk.sequence = 1 := by
      rw [heq, offset_mod (by decide), offset_add (by decide)]
    have hn := hnum (by omega) (by omega)
    have hmoved : Moved num next 1 rx ((rx.setLastIndSeq blk.sequence).note (.legacy blk)) := by
      refine ⟨heq, h.placed.move heq fun m hm => ⟨h.placed.waiting m hm, ?_⟩, ?_⟩
      · exact h.settled.window.pos _ (List.mem_map.mpr ⟨m, hm, rfl⟩)
      · rw [← hoff, ← hn]
        exact h.sent.legacy rfl (by omega)
    have hwin := h.settled.window.advance (by decide) h.settled.gap
    rw [← InWindow.base_mod (by decide), ← heq] at hwin
    obtain ⟨k, hk, hin⟩ := inOrder_moved hmoved.placed hmoved.sent h.settled.linked hwin hw
    exact ⟨1 + k, by omega, (hmoved.trans hin).congr _ rfl rfl rfl⟩
  · rename_i hone
    split
    · -- II. duplicated, III. old
      refine ⟨0, by decide, (Moved.stay h.placed h.sent).congr _ rfl rfl ?_⟩
      change indicated (rx.log ++ [.release blk.pRxPacket]) = _
      rw [indicated_append]
      exact List.append_nil _
    · rename_i hold
      rw [not_or] at hold
      have hoff : offset 4096 rx.entry.lastIndSeq blk.sequence < 2048 := by
        by_contra hge
        exact hold.2 (seqSmaller_iff.mpr (Nat.le_of_not_lt hge))
      have hpos : 0 < offset 4096 rx.entry.lastIndSeq blk.sequence := by
        refine Nat.pos_of_ne_zero fun h0 => hold.1 ?_
        refine eq_of_offset_eq (b := rx.entry.lastIndSeq) blk.sequence.isLt hlast ?_
        rw [h0, offset_self (by decide)]
      have hn := hnum hpos hoff
      split
      · -- IV. within the window
        by_cases hbuf : CannotBuffer rx.freelist blk
        · exact ⟨_, offset_lt (by decide), enqueue_unbuffered_moved h.placed h.sent
            h.settled.linked h.settled.window hw hbuf (fun hin => hdup ⟨hbuf, hin⟩) hpos (by omega)
            hn⟩
        · exact ⟨0, by decide, enqueue_buffered_moved h.placed h.sent hbuf hn⟩
      · -- V. beyond the window
        rename_i hout
        have hend : offset 4096 rx.entry.lastIndSeq
            ((rx.entry.lastIndSeq + rx.entry.baWinSize.toNat + 1) % 4096) =
            rx.entry.baWinSize.toNat + 1 := by
          rw [offset_mod (by decide), Nat.add_assoc, offset_add (by omega)]
        have hbeyond : rx.entry.baWinSize.toNat <
            offset 4096 rx.entry.lastIndSeq blk.sequence := by
          by_contra hle
          rw [and_maxSeq] at hout
          exact hout (seqSmaller_of_offset_lt (b := rx.entry.lastIndSeq) (by omega) (by omega))
        exact enqueue_beyond_moved h hbeyond hoff hn

end

/-! ## 5. The session watched -/

/-- The session, and the peer's number that is due: `none` until something tells. -/
structure Watched where
  rx : Rx
  next : Option Nat

/-- The session has become `rx`; `first` is what is due if this is the first that is heard. -/
def Watched.follow (w : Watched) (rx : Rx) (first : Option Nat) : Watched where
  rx := rx
  next :=
    if rx.entry.lastIndSeq = resetRcvSeq then w.next
    else if w.rx.entry.lastIndSeq = resetRcvSeq then first
    else w.next.map (· + offset 4096 w.rx.entry.lastIndSeq rx.entry.lastIndSeq)

/-- A frame is judged once the time-outs that are due are done. -/
def Watched.judging (hz : OsHz) (w : Watched) (blk : RxBlk) (now32 : Ulong) : Watched :=
  w.follow (afterTimeouts hz w.rx blk now32) none

/-- The frame is larger than any that is indicated. -/
def TooLarge (blk : RxBlk) : Prop := (!blk.amsdu) = true ∧ maxRxPktLen < blk.dataSize

instance (blk : RxBlk) : Decidable (TooLarge blk) := inferInstanceAs (Decidable (_ ∧ _))

variable (num) in
def Watched.step (hz : OsHz) (w : Watched) (op : SessionOp) : Watched :=
  let rx := sessionStep hz w.rx op
  match op with
  | .frame blk now32 =>
    if TooLarge blk then w.follow rx none
    else (w.judging hz blk now32).follow rx (some (num blk.pRxPacket + 1))
  | .blockAckReq start => w.follow rx (some start)
  | .timeout _ | .pool _ => w.follow rx none

variable (num) in
/-- **What the peer sends stays within half the sequence space of the window** `next`, `next + 1`,
... `next + baWinSize - 1`, and the header carries the low 12 bits of its number. -/
def Admissible (hz : OsHz) (w : Watched) : SessionOp → Prop
  | .frame blk now32 => blk.sequence.val = num blk.pRxPacket % 4096 ∧
      ∀ next ∈ (w.judging hz blk now32).next, next ≤ num blk.pRxPacket + 2048 ∧
        num blk.pRxPacket < next + w.rx.entry.baWinSize.toNat + 2048
  | _ => True

variable (num) in
/-- **The operation lets a number be handed up again**: a Block-Ack request that starts at a waiting
frame; a frame that cannot be buffered while it waits already or precedes one that waits; a time-out
that flushes the whole list, unless the frame at hand is ahead of it. -/
def Repeats (hz : OsHz) (rx : Rx) : SessionOp → Prop
  | .frame blk now32 => ¬ TooLarge blk ∧
      if flushAllDue hz rx.entry now32 = true then
        ∃ m ∈ rx.entry.list.next, num blk.pRxPacket ≤ num m.pPacket
      else
        Doubles (afterTimeouts hz rx blk now32) blk ∨ Strands (afterTimeouts hz rx blk now32) blk
  | .blockAckReq start =>
    seqSmaller rx.entry.lastIndSeq (Fin.ofNat 4096 start : SeqNo) maxSeq = true ∧
      (Fin.ofNat 4096 start : SeqNo).val ∈ rx.entry.keys
  | .timeout now32 => flushAllDue hz rx.entry now32 = true
  | .pool _ => False

instance (rx : Rx) (blk : RxBlk) : Decidable (Doubles rx blk) :=
  inferInstanceAs (Decidable (_ ∧ _))

instance (hz : OsHz) (w : Watched) (op : SessionOp) : Decidable (Admissible num hz w op) :=
  match op with
  | .frame blk now32 =>
    match h : (w.judging hz blk now32).next with
    | none => decidable_of_iff (blk.sequence.val = num blk.pRxPacket % 4096)
        (by rw [Admissible, h]; simp)
    | some next => decidable_of_iff (blk.sequence.val = num blk.pRxPacket % 4096 ∧
        next ≤ num blk.pRxPacket + 2048 ∧
          num blk.pRxPacket < next + w.rx.entry.baWinSize.toNat + 2048)
        (by rw [Admissible, h]; simp)
  | .blockAckReq _ | .timeout _ | .pool _ => inferInstanceAs (Decidable True)

instance (hz : OsHz) (rx : Rx) (op : SessionOp) : Decidable (Repeats num hz rx op) :=
  match op with
  | .frame blk now32 =>
    inferInstanceAs (Decidable (¬ TooLarge blk ∧
      if flushAllDue hz rx.entry now32 = true then
        ∃ m ∈ rx.entry.list.next, num blk.pRxPacket ≤ num m.pPacket
      else
        Doubles (afterTimeouts hz rx blk now32) blk ∨ Strands (afterTimeouts hz rx blk now32) blk))
  | .blockAckReq _ => inferInstanceAs (Decidable (_ ∧ _))
  | .timeout _ => inferInstanceAs (Decidable (_ = true))
  | .pool _ => inferInstanceAs (Decidable False)

variable (num) in
/-- The session has not begun, or stands at the number that is due. -/
inductive Tracks (w : Watched) : Prop
  | opened (settled : Settled w.rx.entry) (win : 0 < w.rx.entry.baWinSize.toNat)
      (last : w.rx.entry.lastIndSeq = resetRcvSeq) (sent : indicated w.rx.log = [])
  | stands (next : Nat) (due : w.next = some next) (stands : Stands num next w.rx)

section

variable {hz : OsHz} {w : Watched} {next k : Nat} {rx rx' : Rx}

theorem Stands.last_ne (h : Stands num next rx) : rx.entry.lastIndSeq ≠ resetRcvSeq := by
  have hlast := h.placed.last
  rw [resetRcvSeq]
  omega

theorem winSize_of_session (h : rx'.entry.session = rx.entry.session) :
    rx'.entry.baWinSize = rx.entry.baWinSize :=
  congrArg (fun s => s.2.2.1) h

/-- **A session that moves is followed.** -/
theorem Tracks.moved (hdue : w.next = some next) (h : Stands num next w.rx)
    (hmoved : Moved num next k w.rx rx') (hk : k < 4096) (hset : Settled rx'.entry)
    (hsess : rx'.entry.session = w.rx.entry.session) (first : Option Nat) :
    ∃ next', (w.follow rx' first).next = some next' ∧ Stands num next' rx' := by
  refine ⟨next + k, ?_, hset, ?_, hmoved.placed, hmoved.sent⟩
  · have hne : rx'.entry.lastIndSeq ≠ resetRcvSeq := by
      have hlast := hmoved.placed.last
      rw [resetRcvSeq]
      omega
    rw [Watched.follow]
    dsimp only
    rw [if_neg hne, if_neg h.last_ne, hdue, Option.map_some, hmoved.offset hk]
  · rw [winSize_of_session hsess]
    exact h.win

/-- The first frame: nothing waits, and nothing that was handed up is as high. -/
theorem first_stands {blk : RxBlk} (now : Ulong) (hset : Settled rx.entry)
    (hwin : 0 < rx.entry.baWinSize.toNat) (hlast : rx.entry.lastIndSeq = resetRcvSeq)
    (hseq : blk.sequence.val = num blk.pRxPacket % 4096)
    (hsent : Sent num (num blk.pRxPacket) rx) :
    Stands num (num blk.pRxPacket + 1) (indicateBySequence rx blk now) := by
  have hnil := hset.reset hlast
  have hfirst : indicateBySequence rx blk now =
      ((rx.setLastIndSeq blk.sequence).setLastIndSeqAtTimer now).note (.legacy blk) := by
    rw [indicateBySequence]
    dsimp only
    rw [if_pos hlast]
  rw [hfirst]
  refine ⟨?_, hwin, ⟨blk.sequence.isLt, ?_, ?_⟩, hsent.legacy rfl (Nat.le_refl _)⟩
  · exact Settled.of_empty hnil (hset.linked.trans (by rw [hnil]; rfl)) (.inr blk.sequence.isLt)
  · change (blk.sequence.val + 1) % 4096 = _
    rw [hseq, Nat.mod_add_mod]
  · intro m hm
    change m ∈ rx.entry.list.next at hm
    rw [hnil] at hm
    exact absurd hm List.not_mem_nil

/-- A flush of the whole list hands it up and forgets the last number. -/
theorem flushAll_sent {blk : RxBlk} {now : Ulong} (h : Stands num next rx)
    (hall : flushAllDue hz rx.entry now = true)
    (hahead : ∀ m ∈ rx.entry.list.next, num m.pPacket < num blk.pRxPacket) :
    Sent num (num blk.pRxPacket) (afterTimeouts hz rx blk now) ∧
      (afterTimeouts hz rx blk now).entry.lastIndSeq = resetRcvSeq := by
  set rx₀ : Rx := { rx with entry := { rx.entry with rcvSeq := blk.sequence } } with hrx₀
  have hlinked : rx₀.entry.list.qlen = rx₀.entry.list.next.length := h.settled.linked
  have hq : 1 < rx.entry.list.qlen := by
    rw [flushAllDue, Bool.and_eq_true, decide_eq_true_eq] at hall
    exact hall.2
  have hflush : afterTimeouts hz rx blk now =
      ((baRefreshReorderingMpdus rx₀).setLastIndSeqAtTimer now).setLastIndSeqAtTimer now := by
    rw [afterTimeouts, baFlushReorderingTimeoutMpdus, if_neg (show rx₀.entry.list.qlen ≠ 0 by
      change rx.entry.list.qlen ≠ 0
      omega), if_pos (show flushAllDue hz rx₀.entry now = true from hall)]
  rw [hflush]
  refine ⟨?_, rfl⟩
  have htook := refresh_took rx₀ hlinked
  have hnext : next ≤ num blk.pRxPacket := by
    -- the list is not empty, and its numbers are at or behind the one that is due
    rcases hnil : rx.entry.list.next with _ | ⟨m, rest⟩
    · rw [h.settled.linked, hnil] at hq
      exact absurd hq (by simp)
    · have hmem : m ∈ rx.entry.list.next := by rw [hnil]; exact List.mem_cons_self
      have hn := h.placed.waiting m hmem
      have hpos := h.settled.window.pos _ (List.mem_map.mpr ⟨m, hmem, rfl⟩)
      have hlt := hahead m hmem
      omega
  have hsent₀ : Sent num next rx₀ := ⟨h.sent.below, h.sent.advancing⟩
  refine hsent₀.append (rx.entry.list.next.map ReorderingMpdu.pPacket) ?_ hnext
    (h.placed.sorted h.settled.window) fun p hp => ?_
  · change indicated (baRefreshReorderingMpdus rx₀).log = _
    rw [htook.log, indicated_append, indicated_announce]
  · obtain ⟨m, hm, rfl⟩ := List.mem_map.mp hp
    have hn := h.placed.waiting m hm
    have hpos := h.settled.window.pos _ (List.mem_map.mpr ⟨m, hm, rfl⟩)
    exact ⟨by omega, hahead m hm⟩

/-- The time-outs that come before a frame, when they do not flush the whole list. -/
theorem afterTimeouts_moved (blk : RxBlk) {now : Ulong} (h : Stands num next rx)
    (hall : flushAllDue hz rx.entry now = false) :
    ∃ k < 4096, Moved num next k rx (afterTimeouts hz rx blk now) := by
  have h₀ : Stands num next { rx with entry := { rx.entry with rcvSeq := blk.sequence } } :=
    ⟨h.settled.congr rfl rfl rfl, h.win, ⟨h.placed.last, h.placed.anchor, h.placed.waiting⟩,
      ⟨h.sent.below, h.sent.advancing⟩⟩
  obtain ⟨k, hk, hmoved⟩ := flush_moved now h₀ hall
  have hmoved' : Moved num next k rx (baFlushReorderingTimeoutMpdus hz
      { rx with entry := { rx.entry with rcvSeq := blk.sequence } } now) :=
    ⟨hmoved.last, hmoved.placed, hmoved.sent⟩
  exact ⟨k, hk, hmoved'.congr _ rfl rfl rfl⟩

variable (rx) in
/-- Before the first frame nothing is due. -/
theorem flush_opened {now : Ulong} (hset : Settled rx.entry)
    (hlast : rx.entry.lastIndSeq = resetRcvSeq) :
    baFlushReorderingTimeoutMpdus hz rx now = rx := by
  have hq : rx.entry.list.qlen = 0 := by
    rw [hset.linked, hset.reset hlast]
    rfl
  rw [baFlushReorderingTimeoutMpdus, if_pos hq]

/-- A Block-Ack request before the first frame only sets the number that is due. -/
theorem bar_opened {start : Nat} (hset : Settled w.rx.entry)
    (hwin : 0 < w.rx.entry.baWinSize.toNat) (hlast : w.rx.entry.lastIndSeq = resetRcvSeq)
    (hsent : indicated w.rx.log = []) :
    Tracks num (w.follow (barOnEntry w.rx (Fin.ofNat 4096 start)) (some start)) := by
  obtain ⟨hset', hsess'⟩ := bar_settled w.rx (Fin.ofNat 4096 start) hset
  have hnil := hset.reset hlast
  have hdrain : baIndicateReorderingMpdusLeSeq w.rx (Fin.ofNat 4096 start : SeqNo) = w.rx := by
    rw [baIndicateReorderingMpdusLeSeq, hnil]
    rfl
  by_cases hsm : seqSmaller w.rx.entry.lastIndSeq (Fin.ofNat 4096 start : SeqNo) maxSeq = true
  · have hbar : barOnEntry w.rx (Fin.ofNat 4096 start) = w.rx.setLastIndSeq
        (if start % 4096 = 0 then maxSeq else start % 4096 - 1) := by
      rw [barOnEntry, if_pos hsm, hdrain]
      rfl
    rw [hbar] at hset' hsess' ⊢
    have hmod := Nat.mod_lt start (show 0 < 4096 by decide)
    have hlast' : (w.rx.setLastIndSeq (if start % 4096 = 0 then maxSeq
        else start % 4096 - 1)).entry.lastIndSeq < 4096 := by
      change (if start % 4096 = 0 then maxSeq else start % 4096 - 1) < 4096
      rw [maxSeq]
      split <;> omega
    have hst : Stands num start (w.rx.setLastIndSeq
        (if start % 4096 = 0 then maxSeq else start % 4096 - 1)) := by
      refine ⟨hset', hwin, ⟨hlast', ?_, fun m hm => ?_⟩, ⟨fun p hp => ?_, ?_⟩⟩
      · change ((if start % 4096 = 0 then maxSeq else start % 4096 - 1) + 1) % 4096 = _
        rw [maxSeq]
        split <;> omega
      · change m ∈ w.rx.entry.list.next at hm
        rw [hnil] at hm
        exact absurd hm List.not_mem_nil
      · change p ∈ indicated w.rx.log at hp
        rw [hsent] at hp
        exact absurd hp List.not_mem_nil
      · change ((indicated w.rx.log).map num).Pairwise _
        rw [hsent]
        exact List.Pairwise.nil
    refine .stands start ?_ hst
    rw [Watched.follow]
    dsimp only
    rw [if_neg hst.last_ne, if_pos hlast]
  · have hbar : barOnEntry w.rx (Fin.ofNat 4096 start) = w.rx := by
      rw [barOnEntry, if_neg hsm]
    rw [hbar]
    exact .opened hset hwin hlast hsent

/-- **One operation** keeps track of the session. -/
theorem Tracks.step {op : SessionOp} (h : Tracks num w) (hadm : Admissible num hz w op)
    (hno : ¬ Repeats num hz w.rx op) : Tracks num (w.step num hz op) := by
  cases op with
  | frame blk now =>
    rw [Watched.step]
    by_cases hlarge : TooLarge blk
    · -- the frame is dropped
      rw [if_pos hlarge]
      have hdrop : sessionStep hz w.rx (.frame blk now) = w.rx.note (.release blk.pRxPacket) :=
        if_pos hlarge
      rw [hdrop]
      have hlog : indicated (w.rx.note (.release blk.pRxPacket)).log = indicated w.rx.log := by
        rw [Rx.note, indicated_append]
        exact List.append_nil _
      rcases h with ⟨hset, hwin, hlast, hsent⟩ | ⟨next, hdue, hst⟩
      · exact .opened hset hwin hlast (hlog.trans hsent)
      · have hmoved : Moved num next 0 w.rx (w.rx.note (.release blk.pRxPacket)) :=
          (Moved.stay hst.placed hst.sent).congr _ rfl rfl hlog
        obtain ⟨next', hdue', hst'⟩ := Tracks.moved hdue hst hmoved (by decide) hst.settled rfl none
        exact .stands next' hdue' hst'
    · rw [if_neg hlarge]
      have hjudge : sessionStep hz w.rx (.frame blk now) =
          indicateBySequence (afterTimeouts hz w.rx blk now) blk now := if_neg hlarge
      rw [hjudge]
      obtain ⟨hseq, hnear⟩ := hadm
      rcases h with ⟨hset, hwin, hlast, hsent⟩ | ⟨next, hdue, hst⟩
      · -- the first frame of the session
        obtain ⟨hset', hsess'⟩ := afterTimeouts_settled hz w.rx blk now hset
        have hsame : (afterTimeouts hz w.rx blk now).entry.lastIndSeq = resetRcvSeq ∧
            (afterTimeouts hz w.rx blk now).log = w.rx.log := by
          have hset₀ : Settled { w.rx.entry with rcvSeq := blk.sequence } :=
            hset.congr rfl rfl rfl
          rw [afterTimeouts, flush_opened
            { w.rx with entry := { w.rx.entry with rcvSeq := blk.sequence } } hset₀ hlast]
          exact ⟨hlast, rfl⟩
        have hfirst := first_stands now hset' (by rw [winSize_of_session hsess']; exact hwin)
          hsame.1 hseq ⟨by rw [hsame.2, hsent]; exact fun p hp => absurd hp List.not_mem_nil,
            by rw [Advancing, hsame.2, hsent]; exact List.Pairwise.nil⟩
        refine .stands (num blk.pRxPacket + 1) ?_ hfirst
        rw [Watched.follow]
        dsimp only
        rw [if_neg hfirst.last_ne, Watched.judging, Watched.follow]
        exact if_pos hsame.1
      · obtain ⟨hset₁, hsess₁⟩ := afterTimeouts_settled hz w.rx blk now hst.settled
        have hwin₁ : 0 < (afterTimeouts hz w.rx blk now).entry.baWinSize.toNat := by
          rw [winSize_of_session hsess₁]
          exact hst.win
        cases hall : flushAllDue hz w.rx.entry now with
        | true =>
          -- the whole list goes first, and the frame is ahead of it
          have hahead : ∀ m ∈ w.rx.entry.list.next, num m.pPacket < num blk.pRxPacket := by
            intro m hm
            by_contra hge
            refine hno ⟨hlarge, ?_⟩
            rw [if_pos hall]
            exact ⟨m, hm, Nat.le_of_not_lt hge⟩
          obtain ⟨hsent₁, hlast₁⟩ := flushAll_sent hst hall hahead
          have hfirst := first_stands now hset₁ hwin₁ hlast₁ hseq hsent₁
          refine .stands (num blk.pRxPacket + 1) ?_ hfirst
          rw [Watched.follow]
          dsimp only
          rw [if_neg hfirst.last_ne, Watched.judging, Watched.follow]
          exact if_pos hlast₁
        | false =>
          obtain ⟨k, hk, hmoved⟩ := afterTimeouts_moved blk hst hall
          obtain ⟨next₁, hdue₁, hst₁⟩ := Tracks.moved hdue hst hmoved hk hset₁ hsess₁ none
          have hno' : ¬ (Doubles (afterTimeouts hz w.rx blk now) blk ∨
              Strands (afterTimeouts hz w.rx blk now) blk) := by
            intro hor
            refine hno ⟨hlarge, ?_⟩
            rw [hall, if_neg Bool.false_ne_true]
            exact hor
          rw [not_or] at hno'
          obtain ⟨hlow, hhigh⟩ := hnear next₁ hdue₁
          rw [← winSize_of_session hsess₁] at hhigh
          obtain ⟨k', hk', hmoved'⟩ :=
            indicateBySequence_moved now hst₁ hseq hlow hhigh hno'.1
          have hind := indicateBySequence_spec (afterTimeouts hz w.rx blk now) blk now hset₁ hwin₁
          obtain ⟨next₂, hdue₂, hst₂⟩ := Tracks.moved (w := w.judging hz blk now) hdue₁ hst₁ hmoved'
            hk' (hind.settled hno'.2) hind.session (some (num blk.pRxPacket + 1))
          exact .stands next₂ hdue₂ hst₂
  | blockAckReq start =>
    rcases h with ⟨hset, hwin, hlast, hsent⟩ | ⟨next, hdue, hst⟩
    · -- before the first frame the request only sets the number
      exact bar_opened hset hwin hlast hsent
    · obtain ⟨hset', hsess'⟩ := bar_settled w.rx (Fin.ofNat 4096 start) hst.settled
      obtain ⟨k, hk, hmoved⟩ := bar_moved (Fin.ofNat 4096 start) hst
        fun hsm hin => hno ⟨hsm, hin⟩
      obtain ⟨next', hdue', hst'⟩ := Tracks.moved hdue hst hmoved hk hset' hsess' (some start)
      exact .stands next' hdue' hst'
  | timeout now =>
    rcases h with ⟨hset, hwin, hlast, hsent⟩ | ⟨next, hdue, hst⟩
    · have hstep : sessionStep hz w.rx (.timeout now) = w.rx := flush_opened w.rx hset hlast
      rw [Watched.step]
      rw [hstep]
      exact .opened hset hwin hlast hsent
    · obtain ⟨hset', hsess'⟩ := flush_settled hz w.rx now hst.settled
      obtain ⟨k, hk, hmoved⟩ := flush_moved now hst (Bool.eq_false_iff.mpr hno)
      obtain ⟨next', hdue', hst'⟩ := Tracks.moved hdue hst hmoved hk hset' hsess' none
      exact .stands next' hdue' hst'
  | pool freelist =>
    rcases h with ⟨hset, hwin, hlast, hsent⟩ | ⟨next, hdue, hst⟩
    · exact .opened hset hwin hlast hsent
    · obtain ⟨next', hdue', hst'⟩ := Tracks.moved hdue hst
        ((Moved.stay hst.placed hst.sent).congr { w.rx with freelist := freelist } rfl rfl rfl) (by decide) hst.settled rfl none
      exact .stands next' hdue' hst'

end

/-! ## 6. Runs -/

/-- **A session that has just been set up.** -/
structure Opened (rx : Rx) : Prop where
  list : rx.entry.list = {}
  last : rx.entry.lastIndSeq = resetRcvSeq
  win : 0 < rx.entry.baWinSize.toNat
  log : rx.log = []

theorem Opened.tracks {rx : Rx} (h : Opened rx) : Tracks num ⟨rx, none⟩ := by
  refine .opened ?_ h.win h.last ?_
  · exact Settled.of_empty (congrArg ReorderingList.next h.list)
      (congrArg ReorderingList.qlen h.list) (.inl h.last)
  · change indicated rx.log = []
    rw [h.log]
    rfl

/-- **The numbers handed up advance.** In every run of a session whose steps stay near the window
and of which none lets a number be handed up again, the peer's numbers of the frames handed up
strictly increase. -/
theorem indicated_advance (hz : OsHz) (num : Packet → Nat) (rx : Rx) (hopen : Opened rx)
    (ops : List SessionOp)
    (hops : Run.StepsMeet (Watched.step num hz)
      (fun w op => Admissible num hz w op ∧ ¬ Repeats num hz w.rx op) ⟨rx, none⟩ ops) :
    Advancing num (Run.final (Watched.step num hz) ⟨rx, none⟩ ops).rx := by
  have htracks : Tracks num (Run.final (Watched.step num hz) ⟨rx, none⟩ ops) :=
    Run.invariant (Tracks num) (fun _ _ h hok => h.step hok.1 hok.2) hopen.tracks hops
  rcases htracks with ⟨-, -, -, hsent⟩ | ⟨next, -, hst⟩
  · rw [Advancing, hsent]
    exact List.Pairwise.nil
  · exact hst.sent.advancing

namespace Example

/-- A session with a window of 64 numbers. -/
def openedRx : Rx :=
  { entry := { baWinSize := 64, lastIndSeq := resetRcvSeq }, freelist := 256, log := [] }

/-- The packets of a peer whose numbers are the handles, but that sends number `n` again as
`n + 5000`. -/
def numOf (p : Packet) : Nat := p % 5000

def sent (p : Packet) (sequence : SeqNo) : SessionOp :=
  .frame ⟨sequence, 1, 0, 100, false, false, 0, p⟩ 0

theorem openedRx_opened : Opened openedRx := ⟨rfl, rfl, by decide, rfl⟩

/-- 5 waits for 4, a request moves the window to 5, and then everything comes once more. -/
theorem indicated_advance_openedRx :
    Advancing numOf (Run.final (Watched.step numOf hz) ⟨openedRx, none⟩
      [sent 3 3, sent 6 6, .blockAckReq 5, sent 5 5, sent 5003 3, sent 5006 6, sent 7 7]).rx :=
  indicated_advance hz numOf openedRx openedRx_opened _ (by
    simp only [Run.stepsMeet_cons, Run.stepsMeet_nil, and_true]
    decide +kernel)

/-- **A Block-Ack request repeats a frame**: 5 waits for 4, a request that starts at 5 releases it,
and the peer's retransmission of 5 is handed up as well. -/
theorem not_indicated_advance :
    ¬ ∀ (hz : OsHz) (num : Packet → Nat) (rx : Rx), Opened rx → ∀ ops : List SessionOp,
      Run.StepsMeet (Watched.step num hz) (Admissible num hz) ⟨rx, none⟩ ops →
        Advancing num (Run.final (Watched.step num hz) ⟨rx, none⟩ ops).rx := by
  intro hall
  have h := hall hz numOf openedRx openedRx_opened
    [sent 3 3, sent 5 5, .blockAckReq 5, sent 5005 5] (by
      simp only [Run.stepsMeet_cons, Run.stepsMeet_nil, and_true]
      decide +kernel)
  rw [Advancing] at h
  revert h
  decide +kernel

end Example

end Mt7601.Ba
