/-
# The table of recipient sessions

The entries are shared between peers and traffic classes, given out by a scan and a counter, and
found again through `BARecWcidArray`. The invariant of the table (`Table`) says that this works: a
cell points to an accepted session that points back, what is not in use holds no frame, and the
counter counts. Each operation keeps it, by the lemmas about the one entry it works on.
-/
import Mt7601.Ba.Session
import Mt7601.Lib.Run
import Mathlib.Order.Interval.Finset.Nat

namespace Mt7601.Ba

open SeqNum

/-! ## 1. The invariant of the table -/

/-- **What the table keeps of an entry**: a property of the list and the numbers it is read by, which
an emptied and reset entry has. -/
class EntryLaw (P : BaRecEntry → Prop) : Prop where
  congr : ∀ {e e' : BaRecEntry}, P e → e'.list = e.list → e'.lastIndSeq = e.lastIndSeq →
    e'.baWinSize = e.baWinSize → P e'
  empty : ∀ {e : BaRecEntry}, e.list = {} → e.lastIndSeq = resetRcvSeq → P e
  linked : ∀ {e : BaRecEntry}, P e → e.list.qlen = e.list.next.length

instance : EntryLaw Settled where
  congr := Settled.congr
  empty := fun hlist hlast =>
    Settled.of_empty (congrArg ReorderingList.next hlist) (congrArg ReorderingList.qlen hlist)
      (.inl hlast)
  linked := fun h => h.linked

/-- The entries in use, among those a session can be given. -/
def busy (ad : Adapter) : Finset Nat :=
  (Finset.Ico 1 maxLenOfBaRecTable).filter fun i =>
    (ad.baRecEntry i).recBaStatus ≠ .recipientNone

/-- **The table is consistent** and each entry satisfies `P`: a cell of `BARecWcidArray` points to
an accepted session that points back, an unused entry (and the entry `0`) holds no frame, and
`numAsRecipient` counts the used ones. -/
structure Table (P : BaRecEntry → Prop) (ad : Adapter) : Prop where
  entry : ∀ i, P (ad.baRecEntry i)
  mapped : ∀ w t, ad.baRecWcidArray w t ≠ 0 →
    ad.baRecWcidArray w t ∈ Finset.Ico 1 maxLenOfBaRecTable ∧
      (ad.baRecEntry (ad.baRecWcidArray w t)).recBaStatus = .recipientAccept ∧
      (ad.baRecEntry (ad.baRecWcidArray w t)).wcid = w ∧
      (ad.baRecEntry (ad.baRecWcidArray w t)).tid = t ∧
      0 < (ad.baRecEntry (ad.baRecWcidArray w t)).baWinSize.toNat
  zero : (ad.baRecEntry 0).recBaStatus = .recipientNone
  free : ∀ i, (ad.baRecEntry i).recBaStatus = .recipientNone →
    (ad.baRecEntry i).list.next = []
  count : ad.numAsRecipient = (busy ad).card

theorem Table.imp {P Q : BaRecEntry → Prop} {ad : Adapter} (hPQ : ∀ e, P e → Q e)
    (h : Table P ad) : Table Q ad :=
  { h with entry := fun i => hPQ _ (h.entry i) }

theorem table_init (freelist : Nat) : Table Settled (baTableInit freelist) where
  entry := fun _ => Settled.of_empty rfl rfl (.inr (show 0 < 4096 by decide))
  mapped := fun _ _ h => absurd rfl h
  zero := rfl
  free := fun _ _ => rfl
  count := by simp [busy, baTableInit]

namespace Adapter

variable {ad : Adapter} {idx : Nat} {rx : Rx} {f : BaRecEntry → BaRecEntry} {w : Nat} {t : Fin 16}

@[simp] theorem store_entry_self : (ad.store idx rx).baRecEntry idx = rx.entry := if_pos rfl

@[simp] theorem store_wcidArray : (ad.store idx rx).baRecWcidArray = ad.baRecWcidArray := rfl

@[simp] theorem modifyEntry_entry_self :
    (ad.modifyEntry idx f).baRecEntry idx = f (ad.baRecEntry idx) := if_pos rfl

@[simp] theorem setWcidArray_entry : (ad.setWcidArray w t idx).baRecEntry = ad.baRecEntry := rfl

end Adapter

/-- Writing a view of an entry back, when the session is the same. -/
theorem Table.store {P : BaRecEntry → Prop} {ad : Adapter} {rx : Rx} (h : Table P ad)
    (idx : Nat) (hP : P rx.entry) (hsess : rx.entry.session = (ad.baRecEntry idx).session)
    (hfree : (ad.baRecEntry idx).recBaStatus = .recipientNone → rx.entry.list.next = []) :
    Table P (ad.store idx rx) := by
  have hwcid : rx.entry.wcid = (ad.baRecEntry idx).wcid := congrArg (fun s => s.1) hsess
  have htid : rx.entry.tid = (ad.baRecEntry idx).tid := congrArg (fun s => s.2.1) hsess
  have hwin : rx.entry.baWinSize = (ad.baRecEntry idx).baWinSize :=
    congrArg (fun s => s.2.2.1) hsess
  have hstat : rx.entry.recBaStatus = (ad.baRecEntry idx).recBaStatus :=
    congrArg (fun s => s.2.2.2) hsess
  have hentry : ∀ i, (ad.store idx rx).baRecEntry i = if i = idx then rx.entry
    else ad.baRecEntry i := fun _ => rfl
  have hstatus : ∀ i, ((ad.store idx rx).baRecEntry i).recBaStatus =
      (ad.baRecEntry i).recBaStatus := by
    intro i
    rw [hentry]
    split
    · rename_i hi
      rw [hstat, hi]
    · rfl
  refine ⟨fun i => ?_, fun w t hne => ?_, ?_, fun i => ?_, ?_⟩
  · rw [hentry]
    split
    · exact hP
    · exact h.entry i
  · obtain ⟨hmem, hacc, hw, ht, hpos⟩ := h.mapped w t hne
    change ad.baRecWcidArray w t ∈ _ ∧ _
    refine ⟨hmem, (hstatus _).trans hacc, ?_, ?_, ?_⟩
    · change ((ad.store idx rx).baRecEntry (ad.baRecWcidArray w t)).wcid = w
      rw [hentry]
      split
      · rename_i hi
        rw [hwcid, ← hi, hw]
      · exact hw
    · change ((ad.store idx rx).baRecEntry (ad.baRecWcidArray w t)).tid = t
      rw [hentry]
      split
      · rename_i hi
        rw [htid, ← hi, ht]
      · exact ht
    · change 0 < ((ad.store idx rx).baRecEntry (ad.baRecWcidArray w t)).baWinSize.toNat
      rw [hentry]
      split
      · rename_i hi
        rw [hwin, ← hi]
        exact hpos
      · exact hpos
  · rw [hstatus]
    exact h.zero
  · rw [hstatus, hentry]
    intro hnone
    split
    · rename_i hi
      exact hfree (hi ▸ hnone)
    · exact h.free i hnone
  · change ad.numAsRecipient = _
    rw [h.count]
    simp only [busy, hstatus]

/-- A function that keeps the entry's session and leaves an empty list empty. -/
theorem Table.store_of {P : BaRecEntry → Prop} {ad : Adapter} {idx : Nat} {f : Rx → Rx}
    (h : Table P ad) (hf : P (f (ad.rx idx)).entry ∧
      (f (ad.rx idx)).entry.session = (ad.baRecEntry idx).session)
    (hempty : (ad.rx idx).entry.list.next = [] → (f (ad.rx idx)).entry.list.next = []) :
    Table P (ad.store idx (f (ad.rx idx))) :=
  h.store idx hf.1 hf.2 fun hnone => hempty (h.free idx hnone)

section

variable {P : BaRecEntry → Prop} [EntryLaw P]

/-- Giving up an entry: the session that pointed to it is gone. -/
theorem Table.freeRecEntry {ad : Adapter} {idx : Nat} (h : Table P ad)
    (hempty : (ad.baRecEntry idx).list.next = []) :
    Table P (baTableFreeRecEntry ad idx) := by
  unfold baTableFreeRecEntry
  split
  · exact h
  · rename_i hidx
    rw [not_or, Nat.not_le] at hidx
    dsimp only
    split
    · exact h
    · rename_i hbusy
      set ad' : Adapter := Adapter.modifyEntry
        { ad.setWcidArray (ad.baRecEntry idx).wcid (ad.baRecEntry idx).tid 0 with
          numAsRecipient := ad.numAsRecipient - 1 } idx
        (fun e => { e with recBaStatus := .recipientNone }) with had'
      have hentry : ∀ i, ad'.baRecEntry i = if i = idx then
          { ad.baRecEntry i with recBaStatus := .recipientNone } else ad.baRecEntry i :=
        fun _ => rfl
      have harr : ∀ w t, ad'.baRecWcidArray w t =
          if w = (ad.baRecEntry idx).wcid ∧ t = (ad.baRecEntry idx).tid then 0
          else ad.baRecWcidArray w t := fun _ _ => rfl
      refine ⟨fun i => ?_, fun w t => ?_, ?_, fun i => ?_, ?_⟩
      · rw [hentry]
        split
        · exact EntryLaw.congr (h.entry i) rfl rfl rfl
        · exact h.entry i
      · -- no cell but the cleared one pointed to the entry
        rw [harr]
        split
        · exact fun hne => absurd rfl hne
        · rename_i hother
          intro hne
          obtain ⟨hmem, hacc, hw, ht, hpos⟩ := h.mapped w t hne
          have hi : ad.baRecWcidArray w t ≠ idx := by
            rintro rfl
            exact hother ⟨hw.symm, ht.symm⟩
          rw [hentry, if_neg hi]
          exact ⟨hmem, hacc, hw, ht, hpos⟩
      · rw [hentry, if_neg (Ne.symm hidx.1)]
        exact h.zero
      · rw [hentry]
        split
        · rename_i hi
          exact fun _ => hi ▸ hempty
        · exact h.free i
      · have hset : busy ad' = (busy ad).erase idx := by
          ext i
          simp only [busy, Finset.mem_filter, Finset.mem_erase, hentry]
          by_cases hi : i = idx
          · simp [hi]
          · simp [hi]
        change ad.numAsRecipient - 1 = _
        rw [hset, Finset.card_erase_of_mem, h.count]
        simp only [busy, Finset.mem_filter, Finset.mem_Ico]
        exact ⟨⟨Nat.pos_of_ne_zero hidx.1, hidx.2⟩, hbusy⟩

/-- Setting up an entry: its list is empty, the cell of the session points to it, and no other cell
does. -/
theorem Table.accept {ad : Adapter} {i : Nat} {w : Nat} {t : Fin 16} {win : UInt8} {timeOut : Nat}
    (h : Table P ad) (hi : i ∈ Finset.Ico 1 maxLenOfBaRecTable) (hwin : 0 < win.toNat)
    (hempty : (ad.baRecEntry i).list = {})
    (hstatus : (ad.baRecEntry i).recBaStatus ≠ .recipientNone)
    (honly : ∀ w' t', ad.baRecWcidArray w' t' = i → w' = w ∧ t' = t) :
    Table P ((ad.modifyEntry i fun e =>
      { e with
        baWinSize := win, wcid := w, tid := t, timeOutValue := timeOut,
        recBaStatus := .recipientAccept, lastIndSeq := resetRcvSeq }).setWcidArray w t i) := by
  set ad' := (ad.modifyEntry i fun e =>
      { e with
        baWinSize := win, wcid := w, tid := t, timeOutValue := timeOut,
        recBaStatus := .recipientAccept, lastIndSeq := resetRcvSeq }).setWcidArray w t i
  have hentry : ∀ j, ad'.baRecEntry j = if j = i then
      { ad.baRecEntry j with
        baWinSize := win, wcid := w, tid := t, timeOutValue := timeOut,
        recBaStatus := .recipientAccept, lastIndSeq := resetRcvSeq } else ad.baRecEntry j :=
    fun _ => rfl
  have harr : ∀ w' t', ad'.baRecWcidArray w' t' =
      if w' = w ∧ t' = t then i else ad.baRecWcidArray w' t' := fun _ _ => rfl
  have hi0 : i ≠ 0 := by
    rintro rfl
    simp at hi
  refine ⟨fun j => ?_, fun w' t' => ?_, ?_, fun j => ?_, ?_⟩
  · rw [hentry]
    split
    · rename_i hj
      exact EntryLaw.empty (by rw [hj]; exact hempty) rfl
    · exact h.entry j
  · rw [harr]
    split
    · rename_i hwt
      intro _
      rw [hentry, if_pos rfl]
      exact ⟨hi, rfl, hwt.1.symm, hwt.2.symm, hwin⟩
    · rename_i hwt
      intro hne
      have hji : ad.baRecWcidArray w' t' ≠ i := fun heq => hwt (honly w' t' heq)
      rw [hentry, if_neg hji]
      exact h.mapped w' t' hne
  · rw [hentry, if_neg hi0.symm]
    exact h.zero
  · rw [hentry]
    split
    · exact fun hnone => absurd hnone (by simp)
    · exact h.free j
  · have hset : busy ad' = busy ad := by
      ext j
      simp only [busy, Finset.mem_filter, hentry]
      by_cases hj : j = i
      · simp [hj, hstatus]
      · simp [hj]
    change ad.numAsRecipient = _
    rw [hset, h.count]

/-! ## 2. The operations -/

/-- What is left of an empty list by the function a Block-Ack request or a time-out calls. -/
theorem barOnEntry_empty {rx : Rx} {start : SeqNo} (h : rx.entry.list.next = []) :
    (barOnEntry rx start).entry.list.next = [] := by
  unfold barOnEntry
  split
  · simp [baIndicateReorderingMpdusLeSeq, h, leSeqLoop, Rx.setLastIndSeq]
  · exact h

theorem flush_empty {hz : OsHz} {rx : Rx} {now : Ulong} (hs : Settled rx.entry)
    (h : rx.entry.list.next = []) :
    (baFlushReorderingTimeoutMpdus hz rx now).entry.list.next = [] := by
  have hq : rx.entry.list.qlen = 0 := by rw [hs.linked, h]; rfl
  rw [baFlushReorderingTimeoutMpdus, if_pos hq]
  exact h

theorem Table.flushTimeout {hz : OsHz} {ad : Adapter} {wcid : Nat} {tid : Fin 16} {now : Ulong}
    (h : Table Settled ad) : Table Settled (flushTimeout hz ad wcid tid now) :=
  h.store_of (f := fun rx => baFlushReorderingTimeoutMpdus hz rx now)
    (flush_settled hz _ now (h.entry _)) (flush_empty (h.entry _))

theorem Table.maintain {hz : OsHz} {ad : Adapter} {entryNone : Nat → Bool} {now : Ulong}
    (h : Table Settled ad) : Table Settled (baReOrderingBufferMaintain hz ad entryNone now) := by
  refine Run.invariant_always (Table Settled) (fun ad wcid h => ?_) h
  split
  · exact h
  · exact Run.invariant_always (Table Settled) (fun ad tid h => h.flushTimeout) h

omit [EntryLaw P] in
/-- **The scan for a free entry succeeds** whenever the count says there is one. -/
theorem alloc_spec {ad : Adapter} (idx₀ : Nat) (h : Table P ad) :
    (∃ i ∈ Finset.Ico 1 maxLenOfBaRecTable, (ad.baRecEntry i).recBaStatus = .recipientNone ∧
      baTableAllocRecEntry ad idx₀ =
        ({ ad with numAsRecipient := ad.numAsRecipient + 1 }.modifyEntry i
          fun e => { e with recBaStatus := .recipientUsed }, some i, i)) ∨
      baTableAllocRecEntry ad idx₀ = (ad, none, idx₀) := by
  unfold baTableAllocRecEntry
  split
  · exact .inr rfl
  · rename_i hroom
    left
    cases hfind : (List.range' 1 (maxLenOfBaRecTable - 1)).find? fun i =>
        decide ((ad.baRecEntry i).recBaStatus = .recipientNone) with
    | none =>
      -- all of them in use contradicts the count
      exfalso
      have hall : busy ad = Finset.Ico 1 maxLenOfBaRecTable := by
        refine Finset.filter_eq_self.mpr fun i hi => ?_
        have := List.find?_eq_none.mp hfind i (by
          rw [List.mem_range'_1]
          simp only [Finset.mem_Ico] at hi
          have : maxLenOfBaRecTable = 128 := rfl
          omega)
        simpa using this
      rw [h.count, hall, Nat.card_Ico] at hroom
      exact hroom (Nat.le_refl _)
    | some i =>
      have hi := List.mem_of_find?_eq_some hfind
      have hst := List.find?_some hfind
      simp only [decide_eq_true_eq] at hst
      refine ⟨i, ?_, hst, rfl⟩
      rw [List.mem_range'_1] at hi
      rw [Finset.mem_Ico]
      have : maxLenOfBaRecTable = 128 := rfl
      omega

/-- Taking a free entry: in use, but not yet a session. -/
theorem Table.use {ad : Adapter} {i : Nat} (h : Table P ad)
    (hi : i ∈ Finset.Ico 1 maxLenOfBaRecTable)
    (hnone : (ad.baRecEntry i).recBaStatus = .recipientNone) :
    Table P ({ ad with numAsRecipient := ad.numAsRecipient + 1 }.modifyEntry i
      fun e => { e with recBaStatus := .recipientUsed }) := by
  set ad' := Adapter.modifyEntry { ad with numAsRecipient := ad.numAsRecipient + 1 } i
      fun e => { e with recBaStatus := .recipientUsed }
  have hentry : ∀ j, ad'.baRecEntry j = if j = i then
      { ad.baRecEntry j with recBaStatus := .recipientUsed } else ad.baRecEntry j := fun _ => rfl
  have hi0 : i ≠ 0 := by
    rintro rfl
    simp at hi
  refine ⟨fun j => ?_, fun w t hne => ?_, ?_, fun j => ?_, ?_⟩
  · rw [hentry]
    split
    · exact EntryLaw.congr (h.entry j) rfl rfl rfl
    · exact h.entry j
  · obtain ⟨hmem, hacc, hw, ht, hpos⟩ := h.mapped w t hne
    have hne' : ad.baRecWcidArray w t ≠ i := by
      intro heq
      rw [heq, hnone] at hacc
      exact absurd hacc (by simp)
    change ad.baRecWcidArray w t ∈ _ ∧ (ad'.baRecEntry (ad.baRecWcidArray w t)).recBaStatus = _ ∧
      (ad'.baRecEntry (ad.baRecWcidArray w t)).wcid = _ ∧
      (ad'.baRecEntry (ad.baRecWcidArray w t)).tid = _ ∧
      0 < (ad'.baRecEntry (ad.baRecWcidArray w t)).baWinSize.toNat
    rw [hentry, if_neg hne']
    exact ⟨hmem, hacc, hw, ht, hpos⟩
  · rw [hentry, if_neg hi0.symm]
    exact h.zero
  · rw [hentry]
    split
    · exact fun hnone => absurd hnone (by simp)
    · exact h.free j
  · have hset : busy ad' = insert i (busy ad) := by
      ext j
      simp only [busy, Finset.mem_filter, Finset.mem_insert, hentry]
      by_cases hj : j = i
      · simp only [hj, if_true, true_or, iff_true]
        exact ⟨hi, by simp⟩
      · simp [hj]
    change ad.numAsRecipient + 1 = _
    rw [hset, Finset.card_insert_of_notMem, h.count]
    simp [busy, hnone]

theorem Table.sessionAdd {ad : Adapter} {wcid : Nat} {limit : UInt8} {frame : FrameAddbaReq}
    (h : Table P ad) : Table P (baRecSessionAdd ad wcid limit frame).1 := by
  have hwin : ∀ win : UInt8, 0 < (if win = 0 then 64 else win : UInt8).toNat := by
    intro win
    split
    · decide
    · rename_i hne
      exact Nat.pos_of_ne_zero fun h0 => hne (UInt8.toNat_inj.mp h0)
  dsimp only [baRecSessionAdd]
  by_cases hidx : ad.baRecWcidArray wcid frame.tid = 0
  · rw [if_pos hidx]
    rcases alloc_spec (ad.baRecWcidArray wcid frame.tid) h with ⟨i, hi, hnone, hall⟩ | hall
    · rw [hall]
      have huse := h.use hi hnone
      refine huse.accept hi (hwin _) ?_ ?_ fun w' t' heq => ?_
      · have hlinked := EntryLaw.linked (h.entry i)
        have hnil := h.free i hnone
        rw [hnil] at hlinked
        rw [Adapter.modifyEntry_entry_self]
        rcases hl : (ad.baRecEntry i).list with ⟨next, qlen⟩
        simp_all
      · simp
      · -- a free entry is not the target of any cell
        exfalso
        change ad.baRecWcidArray w' t' = i at heq
        have hi0 : i ≠ 0 := by
          rintro rfl
          simp at hi
        have hacc := (h.mapped w' t' (heq ▸ hi0)).2.1
        rw [heq, hnone] at hacc
        exact absurd hacc (by simp)
    · rw [hall]
      exact h
  · rw [if_neg hidx]
    obtain ⟨hmem, hacc, hw, ht, -⟩ := h.mapped _ _ hidx
    obtain ⟨hlist, hlast, hsess⟩ := refresh_spec (ad.rx (ad.baRecWcidArray wcid frame.tid))
      (EntryLaw.linked (h.entry _))
    have hst := h.store (ad.baRecWcidArray wcid frame.tid)
      (EntryLaw.empty hlist hlast) hsess
      (fun _ => by rw [hlist])
    refine hst.accept hmem (hwin _) ?_ ?_ fun w' t' heq => ?_
    · simp [hlist]
    · rw [Adapter.store_entry_self, show (baRefreshReorderingMpdus _).entry.recBaStatus = _ from
        congrArg (fun s => s.2.2.2) hsess]
      exact fun hnone => absurd (hacc.symm.trans hnone) (by simp)
    · change ad.baRecWcidArray w' t' = _ at heq
      obtain ⟨-, -, hw', ht', -⟩ := h.mapped w' t' (heq ▸ hidx)
      rw [heq] at hw' ht'
      exact ⟨hw'.symm.trans hw, ht'.symm.trans ht⟩

/-- Emptying an entry and clearing the cell that points to it. -/
theorem Table.unlink {ad : Adapter} (h : Table P ad) (wcid : Nat) (tid : Fin 16)
    (hidx : ad.baRecWcidArray wcid tid ≠ 0)
    (hempty : (ad.baRecEntry (ad.baRecWcidArray wcid tid)).list = {}) :
    Table P ((ad.modifyEntry (ad.baRecWcidArray wcid tid) fun e =>
      { e with lastIndSeq := resetRcvSeq, baWinSize := 0 }).setWcidArray wcid tid 0) := by
  obtain ⟨-, -, hw, ht, -⟩ := h.mapped _ _ hidx
  set idx := ad.baRecWcidArray wcid tid
  set ad' := (ad.modifyEntry idx fun e =>
      { e with lastIndSeq := resetRcvSeq, baWinSize := 0 }).setWcidArray wcid tid 0
  have hentry : ∀ j, ad'.baRecEntry j = if j = idx then
      { ad.baRecEntry j with lastIndSeq := resetRcvSeq, baWinSize := 0 } else ad.baRecEntry j :=
    fun _ => rfl
  have harr : ∀ w t, ad'.baRecWcidArray w t =
      if w = wcid ∧ t = tid then 0 else ad.baRecWcidArray w t := fun _ _ => rfl
  have hstatus : ∀ j, (ad'.baRecEntry j).recBaStatus = (ad.baRecEntry j).recBaStatus := by
    intro j
    rw [hentry]
    split <;> rfl
  refine ⟨fun j => ?_, fun w' t' => ?_, ?_, fun j => ?_, ?_⟩
  · rw [hentry]
    split
    · rename_i hj
      exact EntryLaw.empty (by rw [hj]; exact hempty) rfl
    · exact h.entry j
  · rw [harr]
    split
    · exact fun hne => absurd rfl hne
    · rename_i hother
      intro hne
      have hj : ad.baRecWcidArray w' t' ≠ idx := by
        intro heq
        obtain ⟨-, -, hw', ht', -⟩ := h.mapped w' t' hne
        rw [heq] at hw' ht'
        exact hother ⟨hw'.symm.trans hw, ht'.symm.trans ht⟩
      rw [hentry, if_neg hj]
      exact h.mapped w' t' hne
  · rw [hstatus]
    exact h.zero
  · rw [hstatus, hentry]
    intro hnone
    split <;> exact h.free j hnone
  · change ad.numAsRecipient = _
    rw [h.count]
    simp only [busy, hstatus]

theorem Table.tearDown {ad : Adapter} {wcid : Nat} {tid : Fin 16} {bPassive elemAlloc : Bool}
    (h : Table P ad) :
    Table P (baRecSessionTearDown ad wcid tid bPassive elemAlloc) := by
  dsimp only [baRecSessionTearDown]
  split
  · exact h
  · split
    · exact h
    · rename_i hidx
      obtain ⟨-, hacc, -, ht, -⟩ := h.mapped _ _ hidx
      rw [if_pos ⟨ht.symm, hacc⟩]
      split
      · exact h
      · obtain ⟨hlist, hlast, hsess⟩ := refresh_spec (ad.rx (ad.baRecWcidArray wcid tid))
          (EntryLaw.linked (h.entry _))
        have hst := h.store (ad.baRecWcidArray wcid tid)
          (EntryLaw.empty hlist hlast) hsess
          (fun _ => by rw [hlist])
        refine (hst.unlink wcid tid hidx ?_).freeRecEntry ?_
        · simp [hlist]
        · simp [hlist]

theorem Table.idleTimeout {ad : Adapter} {idx : Nat} {now : Ulong} (h : Table P ad) :
    Table P (baRecSessionIdleTimeout ad idx now) := by
  dsimp only [baRecSessionIdleTimeout]
  split
  · obtain ⟨hlist, hlast, hsess⟩ := refresh_spec (ad.rx idx) (EntryLaw.linked (h.entry _))
    exact h.store idx (EntryLaw.empty hlist hlast) hsess
      fun _ => by rw [hlist]
  · exact h

end

theorem Table.log {P : BaRecEntry → Prop} {ad : Adapter} {log : List Disposal} (h : Table P ad) :
    Table P { ad with log := log } :=
  ⟨h.entry, h.mapped, h.zero, h.free, h.count⟩

end Mt7601.Ba
