/-
# The accounts of the session table

Four records of the same sessions: the status of the table's slots, the counters, the index arrays of
the MAC entries and the bitmaps. They agree (`Accounting`) after every sequence of set-ups, answers,
tear-downs, action frames and time-outs -- as long as no recipient session is opened or closed under
a `TID` that the index array does not have. A request with such a `TID` is not refused, and it writes
over the originator's index (`Misnames`); from there on the records disagree.
-/
import Mt7601.Ba.Originator
import Mt7601.Ba.Table
import Mt7601.Lib.SlotTable

namespace Mt7601.Ba

open SlotTable

/-! ## 1. What the records say -/

/-- A session is of one peer and one traffic class. -/
abbrev SessionKey := Nat × Fin 16

namespace SessionTables

/-- The index of the originator session of a key; there is none for a `TID` from eight on. -/
def oriIndex (tb : SessionTables) (k : SessionKey) : Nat :=
  tb.baOriWcidArray k.1 k.2

def oriOwner (tb : SessionTables) (i : Nat) : Option SessionKey :=
  if (tb.baOriEntry i).oriBaStatus = .originatorNone then none
  else some ((tb.baOriEntry i).wcid, (tb.baOriEntry i).tid)

/-- The index of the recipient session of a key: `BARecWcidArray` has eight cells. -/
def recIndex (tb : SessionTables) (k : SessionKey) : Nat :=
  if k.2.val < numOfTid then tb.ad.baRecWcidArray k.1 k.2 else 0

def recOwner (tb : SessionTables) (i : Nat) : Option SessionKey :=
  if (tb.ad.baRecEntry i).recBaStatus = .recipientNone then none
  else some ((tb.ad.baRecEntry i).wcid, (tb.ad.baRecEntry i).tid)

end SessionTables

/-- **The accounts of the originator sessions are exact.** -/
structure OriAccounting (tb : SessionTables) : Prop where
  numAsOriginator : tb.numAsOriginator =
    countOf maxLenOfBaOriTable fun i => (tb.baOriEntry i).oriBaStatus ≠ .originatorNone
  numDoneOriginator : tb.numDoneOriginator =
    countOf maxLenOfBaOriTable fun i => (tb.baOriEntry i).oriBaStatus = .originatorDone
  matched : Exact maxLenOfBaOriTable tb.oriIndex tb.oriOwner
  txBaBitmap : Flagged tb.oriIndex (fun i => (tb.baOriEntry i).oriBaStatus = .originatorDone)
    fun k => tb.txBaBitmap k.1 k.2

/-- **The accounts of the recipient sessions are exact.** -/
structure RecAccounting (tb : SessionTables) : Prop where
  numAsRecipient : tb.ad.numAsRecipient =
    countOf maxLenOfBaRecTable fun i => (tb.ad.baRecEntry i).recBaStatus ≠ .recipientNone
  matched : Exact maxLenOfBaRecTable tb.recIndex tb.recOwner
  rxBaBitmap : Flagged tb.recIndex (fun i => (tb.ad.baRecEntry i).recBaStatus = .recipientAccept)
    fun k => tb.rxBaBitmap k.1 k.2

/-- **The accounting is exact**: the counters count, an index and an occupied slot point at each
other, and a bit is set exactly when its session is established. -/
structure Accounting (tb : SessionTables) : Prop where
  originator : OriAccounting tb
  recipient : RecAccounting tb

/-! ## 2. The condition -/

/-- A recipient session is opened under a `TID` that the array does not have. -/
def AddsBeyond (tb : SessionTables) (wcid : Nat) (tid : Fin 16) : Prop :=
  numOfTid ≤ tid.val ∧
    (tb.ad.baRecWcidArray wcid tid ≠ 0 ∨ tb.ad.numAsRecipient < maxLenOfBaRecTable - 1)

/-- A recipient session is closed under such a `TID`, and what stands there is the index of an
originator session whose number some recipient session has as well. -/
def FreesBeyond (tb : SessionTables) (wcid : Nat) (tid : Fin 16) : Prop :=
  wcid < maxLenOfMacTable ∧ numOfTid ≤ tid.val ∧ tb.ad.baRecWcidArray wcid tid ≠ 0 ∧
    (tb.ad.baRecEntry (tb.ad.baRecWcidArray wcid tid)).recBaStatus ≠ .recipientNone

def Misnames (tb : SessionTables) : TableOp → Prop
  | .recSessionAdd wcid _ frame => AddsBeyond tb wcid frame.tid
  | .recSessionTearDown wcid tid _ _ => FreesBeyond tb wcid tid
  | .peerAddBaReq cfg pMacEntry wcid msg =>
    wcid < maxLenOfMacTable ∧ peerAddBaReqActionSanity msg = true ∧ cfg.bBADecline = false ∧
      pMacEntry.isHtSta = true ∧ AddsBeyond tb wcid msg.frame.tid
  | .peerDelBa wcid msg =>
    peerDelBaActionSanity wcid msg = true ∧ msg.initiator = true ∧ FreesBeyond tb wcid msg.tid
  | _ => False

/-! ## 3. The arrays -/

section

variable {tb : SessionTables} {wcid : Nat} {tid : Fin 16} {idx : Nat}

theorem tid_add_eight (h : tid.val < numOfTid) : (tid + 8).val = tid.val + 8 := by
  rw [Fin.val_add]
  exact Nat.mod_eq_of_lt (Nat.add_lt_add_right h 8)

/-- The originator's cells are apart from each other and from the recipient's. -/
theorem setOriWcidArray_oriIndex (h : tid.val < numOfTid) (k : SessionKey) :
    (tb.setOriWcidArray wcid tid idx).oriIndex k = if k = (wcid, tid) then idx else tb.oriIndex k := by
  rw [SessionTables.oriIndex, SessionTables.oriIndex, SessionTables.baOriWcidArray,
    SessionTables.baOriWcidArray, SessionTables.setOriWcidArray, if_pos h]
  by_cases hk : k = (wcid, tid)
  · rw [if_pos hk, hk, if_pos h]
    exact if_pos ⟨rfl, rfl⟩
  · rw [if_neg hk]
    by_cases h8 : k.2.val < numOfTid
    · rw [if_pos h8, if_pos h8]
      refine if_neg ?_
      rintro ⟨hw, ht⟩
      refine hk (Prod.ext hw (Fin.ext ?_))
      have hval := congrArg Fin.val ht
      rw [tid_add_eight h8, tid_add_eight h] at hval
      exact Nat.add_right_cancel hval
    · rw [if_neg h8, if_neg h8]

@[simp] theorem modifyOriEntry_self {f : BaOriEntry → BaOriEntry} :
    (tb.modifyOriEntry idx f).baOriEntry idx = f (tb.baOriEntry idx) :=
  if_pos rfl

theorem modifyOriEntry_of_ne {f : BaOriEntry → BaOriEntry} {j : Nat} (h : j ≠ idx) :
    (tb.modifyOriEntry idx f).baOriEntry j = tb.baOriEntry j :=
  if_neg h

theorem setOriWcidArray_recIndex (k : SessionKey) :
    (tb.setOriWcidArray wcid tid idx).recIndex k = tb.recIndex k := by
  rw [SessionTables.setOriWcidArray]
  split
  · rename_i h
    rw [SessionTables.recIndex, SessionTables.recIndex]
    by_cases h8 : k.2.val < numOfTid
    · rw [if_pos h8, if_pos h8]
      refine if_neg ?_
      rintro ⟨-, ht⟩
      have hval := congrArg Fin.val ht
      rw [tid_add_eight h] at hval
      rw [numOfTid] at h8
      omega
    · rw [if_neg h8, if_neg h8]
  · rfl

end

/-! ## 4. Each side is read from its own fields -/

theorem OriAccounting.congr {tb tb' : SessionTables} (h : OriAccounting tb)
    (hnum : tb'.numAsOriginator = tb.numAsOriginator)
    (hdone : tb'.numDoneOriginator = tb.numDoneOriginator)
    (hsame : ∀ i, (tb'.baOriEntry i).wcid = (tb.baOriEntry i).wcid ∧
      (tb'.baOriEntry i).tid = (tb.baOriEntry i).tid ∧
      ((tb'.baOriEntry i).oriBaStatus = .originatorNone ↔
        (tb.baOriEntry i).oriBaStatus = .originatorNone) ∧
      ((tb'.baOriEntry i).oriBaStatus = .originatorDone ↔
        (tb.baOriEntry i).oriBaStatus = .originatorDone))
    (hindex : ∀ k, tb'.oriIndex k = tb.oriIndex k) (hbits : tb'.txBaBitmap = tb.txBaBitmap) :
    OriAccounting tb' where
  numAsOriginator := by
    rw [hnum, h.numAsOriginator]
    exact (countOf_congr fun i _ => not_congr (hsame i).2.2.1).symm
  numDoneOriginator := by
    rw [hdone, h.numDoneOriginator]
    exact (countOf_congr fun i _ => (hsame i).2.2.2).symm
  matched := by
    refine h.matched.congr hindex fun i _ => ?_
    obtain ⟨hw, ht, hs, -⟩ := hsame i
    rw [SessionTables.oriOwner, SessionTables.oriOwner, hw, ht]
    by_cases hnone : (tb.baOriEntry i).oriBaStatus = .originatorNone
    · rw [if_pos hnone, if_pos (hs.mpr hnone)]
    · rw [if_neg hnone, if_neg fun h' => hnone (hs.mp h')]
  txBaBitmap :=
    h.txBaBitmap.congr hindex (fun k _ => (hsame (tb.oriIndex k)).2.2.2) fun k => by rw [hbits]

/-- An entry is rewritten without changing hands. -/
theorem OriAccounting.modify {tb : SessionTables} (h : OriAccounting tb) (i : Nat)
    (f : BaOriEntry → BaOriEntry) (hw : (f (tb.baOriEntry i)).wcid = (tb.baOriEntry i).wcid)
    (ht : (f (tb.baOriEntry i)).tid = (tb.baOriEntry i).tid)
    (hnone : (f (tb.baOriEntry i)).oriBaStatus = .originatorNone ↔
      (tb.baOriEntry i).oriBaStatus = .originatorNone)
    (hdone : (f (tb.baOriEntry i)).oriBaStatus = .originatorDone ↔
      (tb.baOriEntry i).oriBaStatus = .originatorDone) :
    OriAccounting (tb.modifyOriEntry i f) := by
  refine h.congr rfl rfl (fun j => ?_) (fun _ => rfl) rfl
  rcases eq_or_ne j i with rfl | hj
  · rw [modifyOriEntry_self]
    exact ⟨hw, ht, hnone, hdone⟩
  · rw [modifyOriEntry_of_ne hj]
    exact ⟨rfl, rfl, Iff.rfl, Iff.rfl⟩

theorem RecAccounting.congr {tb tb' : SessionTables} (h : RecAccounting tb)
    (hnum : tb'.ad.numAsRecipient = tb.ad.numAsRecipient)
    (hsame : ∀ i, (tb'.ad.baRecEntry i).wcid = (tb.ad.baRecEntry i).wcid ∧
      (tb'.ad.baRecEntry i).tid = (tb.ad.baRecEntry i).tid ∧
      (tb'.ad.baRecEntry i).recBaStatus = (tb.ad.baRecEntry i).recBaStatus)
    (hindex : ∀ k, tb'.recIndex k = tb.recIndex k) (hbits : tb'.rxBaBitmap = tb.rxBaBitmap) :
    RecAccounting tb' where
  numAsRecipient := by
    rw [hnum, h.numAsRecipient]
    exact (countOf_congr fun i _ => by rw [(hsame i).2.2]).symm
  matched := by
    refine h.matched.congr hindex fun i _ => ?_
    obtain ⟨hw, ht, hs⟩ := hsame i
    rw [SessionTables.recOwner, SessionTables.recOwner, hw, ht, hs]
  rxBaBitmap := by
    refine h.rxBaBitmap.congr hindex (fun k _ => ?_) fun k => by rw [hbits]
    rw [(hsame (tb.recIndex k)).2.2]

/-! ## 5. Originator sessions -/

section

variable {tb tb' : SessionTables} {i : Nat} {wcid : Nat} {tid : Fin 16}

theorem oriOwner_of_status (h : (tb.baOriEntry i).oriBaStatus ≠ .originatorNone) :
    tb.oriOwner i = some ((tb.baOriEntry i).wcid, (tb.baOriEntry i).tid) :=
  if_neg h

theorem oriOwner_of_none (h : (tb.baOriEntry i).oriBaStatus = .originatorNone) :
    tb.oriOwner i = none :=
  if_pos h

/-- What an index that is not `0` leads to. -/
theorem OriAccounting.entry_of_index (h : OriAccounting tb) (hidx : tb.baOriWcidArray wcid tid ≠ 0) :
    tb.baOriWcidArray wcid tid ∈ Finset.Ico 1 maxLenOfBaOriTable ∧
      (tb.baOriEntry (tb.baOriWcidArray wcid tid)).oriBaStatus ≠ .originatorNone ∧
      (tb.baOriEntry (tb.baOriWcidArray wcid tid)).wcid = wcid ∧
      (tb.baOriEntry (tb.baOriWcidArray wcid tid)).tid = tid := by
  obtain ⟨hmem, hown⟩ := h.matched.pointsBack (wcid, tid) hidx
  change tb.oriOwner (tb.baOriWcidArray wcid tid) = _ at hown
  have hne : (tb.baOriEntry (tb.baOriWcidArray wcid tid)).oriBaStatus ≠ .originatorNone := by
    intro hnone
    rw [oriOwner_of_none hnone] at hown
    exact absurd hown.symm (Option.some_ne_none _)
  rw [oriOwner_of_status hne, Option.some.injEq, Prod.mk.injEq] at hown
  exact ⟨hmem, hne, hown.1, hown.2⟩

/-- The index of an occupied slot, and that its `TID` is below eight. -/
theorem OriAccounting.index_of_entry (h : OriAccounting tb)
    (hi : i ∈ Finset.Ico 1 maxLenOfBaOriTable)
    (hs : (tb.baOriEntry i).oriBaStatus ≠ .originatorNone) :
    tb.baOriWcidArray (tb.baOriEntry i).wcid (tb.baOriEntry i).tid = i ∧
      (tb.baOriEntry i).tid.val < numOfTid := by
  have hfound : tb.baOriWcidArray (tb.baOriEntry i).wcid (tb.baOriEntry i).tid = i :=
    h.matched.found i hi _ (oriOwner_of_status hs)
  refine ⟨hfound, ?_⟩
  by_contra h8
  rw [SessionTables.baOriWcidArray, if_neg h8] at hfound
  exact ne_zero_of_mem hi hfound.symm

/-- **A set-up takes a free slot.** -/
theorem OriAccounting.take (h : OriAccounting tb) (hi : i ∈ Finset.Ico 1 maxLenOfBaOriTable)
    (hfree : (tb.baOriEntry i).oriBaStatus = .originatorNone)
    (hidx : tb.baOriWcidArray wcid tid = 0) (hw : (tb'.baOriEntry i).wcid = wcid)
    (ht : (tb'.baOriEntry i).tid = tid)
    (hs : (tb'.baOriEntry i).oriBaStatus = .originatorWaitRes)
    (hother : ∀ j ≠ i, tb'.baOriEntry j = tb.baOriEntry j)
    (hindex : ∀ k, tb'.oriIndex k = if k = (wcid, tid) then i else tb.oriIndex k)
    (hnum : tb'.numAsOriginator = tb.numAsOriginator + 1)
    (hdone : tb'.numDoneOriginator = tb.numDoneOriginator)
    (hbits : tb'.txBaBitmap = tb.txBaBitmap) : OriAccounting tb' := by
  have hused : (tb'.baOriEntry i).oriBaStatus ≠ .originatorNone := by
    rw [hs]
    exact fun hnone => nomatch hnone
  refine ⟨?_, ?_, ?_, ?_⟩
  · rw [hnum, h.numAsOriginator]
    exact (countOf_insert hi (fun hne => hne hfree) hused fun j hj => by rw [hother j hj]).symm
  · rw [hdone, h.numDoneOriginator]
    refine (countOf_congr fun j _ => ?_).symm
    rcases eq_or_ne j i with rfl | hj
    · rw [hs, hfree]
      exact ⟨fun h => (nomatch h), fun h => (nomatch h)⟩
    · rw [hother j hj]
  · refine h.matched.claim (k := (wcid, tid)) hi (oriOwner_of_none hfree) hidx hindex fun j _ => ?_
    by_cases hj : j = i
    · rw [if_pos hj, hj, oriOwner_of_status hused, hw, ht]
    · rw [if_neg hj, SessionTables.oriOwner, SessionTables.oriOwner, hother j hj]
  · refine h.txBaBitmap.change (wcid, tid) i (fun k' _ hk' => h.matched.ne_of_free hk'
      (oriOwner_of_none hfree)) (fun k' hk' => (hindex k').trans (if_neg hk'))
      (fun j hj => by rw [hother j hj]) (fun k' _ => by rw [hbits]) ?_
    -- not yet established, and the bit is not set
    rw [hbits, hindex, if_pos rfl, hs]
    constructor
    · intro hbit
      exact absurd hidx ((h.txBaBitmap (wcid, tid)).mp hbit).1
    · rintro ⟨-, hdone⟩
      exact nomatch hdone

/-- **A positive answer establishes the session.** -/
theorem OriAccounting.establish (h : OriAccounting tb) (hidx : tb.baOriWcidArray wcid tid ≠ 0)
    (hwait : (tb.baOriEntry (tb.baOriWcidArray wcid tid)).oriBaStatus = .originatorWaitRes)
    {f : BaOriEntry → BaOriEntry} (hf : ∀ e, (f e).wcid = e.wcid ∧ (f e).tid = e.tid ∧
      (f e).oriBaStatus = .originatorDone) :
    OriAccounting ({ tb with
      numDoneOriginator := tb.numDoneOriginator + 1
      txBaBitmap := setBit tb.txBaBitmap wcid tid true }.modifyOriEntry
        (tb.baOriWcidArray wcid tid) f) := by
  obtain ⟨hmem, -, hw, ht⟩ := h.entry_of_index hidx
  set i := tb.baOriWcidArray wcid tid with hi
  set tb' := SessionTables.modifyOriEntry { tb with
      numDoneOriginator := tb.numDoneOriginator + 1
      txBaBitmap := setBit tb.txBaBitmap wcid tid true } i f
  obtain ⟨hfw, hft, hfs⟩ := hf (tb.baOriEntry i)
  have hi' : tb'.baOriEntry i = f (tb.baOriEntry i) := if_pos rfl
  have hother : ∀ j ≠ i, tb'.baOriEntry j = tb.baOriEntry j := fun j hj => if_neg hj
  have hwaits : (tb.baOriEntry i).oriBaStatus ≠ .originatorNone := by
    rw [hwait]
    exact fun h => nomatch h
  refine ⟨?_, ?_, ?_, ?_⟩
  · change tb.numAsOriginator = _
    rw [h.numAsOriginator]
    refine (countOf_congr fun j _ => ?_).symm
    rcases eq_or_ne j i with hj | hj
    · rw [hj, hi', hfs, hwait]
      exact ⟨fun _ h => (nomatch h), fun _ h => (nomatch h)⟩
    · rw [hother j hj]
  · change tb.numDoneOriginator + 1 = _
    rw [h.numDoneOriginator]
    refine (countOf_insert hmem ?_ ?_ fun j hj => by rw [hother j hj]).symm
    · rw [hwait]
      exact fun h => nomatch h
    · rw [hi', hfs]
  · refine h.matched.congr (fun _ => rfl) fun j _ => ?_
    rcases eq_or_ne j i with hj | hj
    · rw [hj, oriOwner_of_status hwaits, oriOwner_of_status, hi', hfw, hft]
      rw [hi', hfs]
      exact fun h => nomatch h
    · rw [SessionTables.oriOwner, SessionTables.oriOwner, hother j hj]
  · refine h.txBaBitmap.change (wcid, tid) i (fun k' hk' h0 => h.matched.ne_of_ne hk' h0
      ((oriOwner_of_status hwaits).trans (by rw [hw, ht]))) (fun _ _ => rfl)
      (fun j hj => by rw [hother j hj]) (fun k' hk' => ?_) ?_
    · exact if_neg fun heq => hk' (Prod.ext heq.1 heq.2)
    · constructor
      · intro _
        refine ⟨hidx, ?_⟩
        change (tb'.baOriEntry i).oriBaStatus = _
        rw [hi', hfs]
      · intro _
        exact if_pos ⟨rfl, rfl⟩

/-- **A slot is given back**: its index and its bit are cleared. -/
theorem OriAccounting.release (h : OriAccounting tb) (hi : i ∈ Finset.Ico 1 maxLenOfBaOriTable)
    (hs : (tb.baOriEntry i).oriBaStatus ≠ .originatorNone) {k : SessionKey}
    (hk : k = ((tb.baOriEntry i).wcid, (tb.baOriEntry i).tid))
    (hnone : (tb'.baOriEntry i).oriBaStatus = .originatorNone)
    (hother : ∀ j ≠ i, tb'.baOriEntry j = tb.baOriEntry j)
    (hindex : ∀ k', tb'.oriIndex k' = if k' = k then 0 else tb.oriIndex k')
    (hnum : tb'.numAsOriginator = tb.numAsOriginator - 1)
    (hdone : tb'.numDoneOriginator =
      if (tb.baOriEntry i).oriBaStatus = .originatorDone then tb.numDoneOriginator - 1
      else tb.numDoneOriginator)
    (hbits : tb'.txBaBitmap =
      if (tb.baOriEntry i).oriBaStatus = .originatorDone then setBit tb.txBaBitmap k.1 k.2 false
      else tb.txBaBitmap) : OriAccounting tb' := by
  have hown : tb.oriOwner i = some k := (oriOwner_of_status hs).trans (by rw [hk])
  refine ⟨?_, ?_, ?_, ?_⟩
  · rw [hnum, h.numAsOriginator]
    exact (countOf_erase hi hs (fun hne => hne hnone) fun j hj => by rw [hother j hj]).symm
  · rw [hdone, h.numDoneOriginator]
    split
    · rename_i hd
      refine (countOf_erase hi hd ?_ fun j hj => by rw [hother j hj]).symm
      rw [hnone]
      exact fun h => nomatch h
    · rename_i hd
      refine (countOf_congr fun j _ => ?_).symm
      rcases eq_or_ne j i with rfl | hj
      · rw [hnone]
        exact ⟨fun h => (nomatch h), fun h => absurd h hd⟩
      · rw [hother j hj]
  · refine h.matched.release hi hown hindex fun j _ => ?_
    by_cases hj : j = i
    · rw [if_pos hj, hj]
      exact oriOwner_of_none hnone
    · rw [if_neg hj, SessionTables.oriOwner, SessionTables.oriOwner, hother j hj]
  · refine h.txBaBitmap.change k i (fun k' hk' h0 => h.matched.ne_of_ne hk' h0 hown)
      (fun k' hk' => (hindex k').trans (if_neg hk')) (fun j hj => by rw [hother j hj])
      (fun k' hk' => ?_) ?_
    · rw [hbits]
      split
      · exact if_neg fun heq => hk' (Prod.ext heq.1 heq.2)
      · rfl
    · rw [hindex, if_pos rfl, hbits]
      constructor
      · intro hbit
        split at hbit
        · rw [setBit, if_pos ⟨rfl, rfl⟩] at hbit
          exact absurd hbit Bool.false_ne_true
        · -- without the status there was no bit
          rename_i hd
          have hmark := ((h.txBaBitmap k).mp hbit).2
          rw [h.matched.found i hi k hown] at hmark
          exact absurd hmark hd
      · rintro ⟨h0, -⟩
        exact absurd rfl h0

/-- `BATableFreeOriEntry` -/
theorem OriAccounting.free (h : OriAccounting tb) (idx : Nat) :
    OriAccounting (baTableFreeOriEntry tb idx) := by
  rw [baTableFreeOriEntry]
  by_cases hrange : idx = 0 ∨ maxLenOfBaOriTable ≤ idx
  · rw [if_pos hrange]
    exact h
  · rw [if_neg hrange]
    rw [not_or, Nat.not_le] at hrange
    have hmem : idx ∈ Finset.Ico 1 maxLenOfBaOriTable :=
      Finset.mem_Ico.mpr ⟨Nat.pos_of_ne_zero hrange.1, hrange.2⟩
    dsimp only
    by_cases hs : (tb.baOriEntry idx).oriBaStatus = .originatorNone
    · rw [if_pos hs]
      exact h
    · rw [if_neg hs]
      obtain ⟨-, h8⟩ := h.index_of_entry hmem hs
      have hset : ∀ k, (tb.setOriWcidArray (tb.baOriEntry idx).wcid (tb.baOriEntry idx).tid 0).oriIndex k =
          if k = ((tb.baOriEntry idx).wcid, (tb.baOriEntry idx).tid) then 0 else tb.oriIndex k :=
        setOriWcidArray_oriIndex h8
      rw [SessionTables.setOriWcidArray, if_pos h8] at hset ⊢
      by_cases hd : (tb.baOriEntry idx).oriBaStatus = .originatorDone
      · rw [if_pos hd]
        exact h.release hmem hs rfl (congrArg BaOriEntry.oriBaStatus (if_pos rfl))
          (fun j hj => if_neg hj) hset rfl (if_pos hd).symm (if_pos hd).symm
      · rw [if_neg hd]
        exact h.release hmem hs rfl (congrArg BaOriEntry.oriBaStatus (if_pos rfl))
          (fun j hj => if_neg hj) hset rfl (if_neg hd).symm (if_neg hd).symm

/-- **A free slot is found** whenever there is one. -/
theorem OriAccounting.alloc (h : OriAccounting tb) (idx₀ : Nat) :
    (∃ i ∈ Finset.Ico 1 maxLenOfBaOriTable, (tb.baOriEntry i).oriBaStatus = .originatorNone ∧
      baTableAllocOriEntry tb idx₀ =
        ({ tb with numAsOriginator := tb.numAsOriginator + 1 }.modifyOriEntry i
          fun e => { e with oriBaStatus := .originatorUsed }, some i, i)) ∨
      baTableAllocOriEntry tb idx₀ = (tb, none, idx₀) := by
  rw [baTableAllocOriEntry]
  by_cases hfull : maxLenOfBaOriTable - 1 ≤ tb.numAsOriginator
  · rw [if_pos hfull]
    exact .inr rfl
  · rw [if_neg hfull]
    rw [h.numAsOriginator, Nat.not_le] at hfull
    obtain ⟨i, hi, hfree, hfind⟩ := scan_finds
      (fun i => decide ((tb.baOriEntry i).oriBaStatus = .originatorNone))
      (fun i => by rw [decide_eq_true_eq, not_not]) hfull
    rw [hfind]
    exact .inl ⟨i, hi, not_not.mp hfree, rfl⟩

/-- `BAOriSessionSetUp` -/
theorem OriAccounting.setUp (h : OriAccounting tb) (cfg : CommonCfg) (pEntry : MacEntry)
    (wcid : Nat) (tid : UInt8) (timeOut delayTime : Nat) (isForced : Bool) :
    OriAccounting (baOriSessionSetUp tb cfg pEntry wcid tid timeOut delayTime isForced).1 := by
  rw [baOriSessionSetUp]
  by_cases htid : numOfTid ≤ tid.toNat
  · rw [if_pos htid]
    exact h
  rw [if_neg htid]
  split
  · exact h
  split
  · exact h
  have h8 : (Fin.ofNat 16 tid.toNat).val < numOfTid := by
    rw [numOfTid] at htid ⊢
    change tid.toNat % 16 < 8
    omega
  dsimp only
  by_cases hidx : tb.baOriWcidArray wcid (Fin.ofNat 16 tid.toNat) = 0
  · rw [if_pos hidx]
    rcases h.alloc (tb.baOriWcidArray wcid (Fin.ofNat 16 tid.toNat)) with
      ⟨i, hi, hfree, halloc⟩ | halloc
    · rw [halloc]
      dsimp only
      rw [modifyOriEntry_self, if_neg (show ¬ OriBlockackStatus.atLeastWaitRes .originatorUsed = true
        from Bool.false_ne_true)]
      have hset : ∀ k, (tb.setOriWcidArray wcid (Fin.ofNat 16 tid.toNat) i).oriIndex k =
          if k = (wcid, Fin.ofNat 16 tid.toNat) then i else tb.oriIndex k :=
        setOriWcidArray_oriIndex h8
      rw [SessionTables.setOriWcidArray, if_pos h8] at hset ⊢
      refine h.take hi hfree hidx (congrArg BaOriEntry.wcid (if_pos rfl))
        (congrArg BaOriEntry.tid (if_pos rfl)) (congrArg BaOriEntry.oriBaStatus (if_pos rfl))
        (fun j hj => ?_) hset rfl rfl rfl
      exact (if_neg hj).trans (if_neg hj)
    · rw [halloc]
      exact h
  · -- a session that exists is only set up again while its slot is merely reserved
    rw [if_neg hidx]
    dsimp only
    obtain ⟨-, hne, hw, ht⟩ := h.entry_of_index hidx
    split
    · exact h
    · rename_i hearly
      have hset : ∀ k, (tb.setOriWcidArray wcid (Fin.ofNat 16 tid.toNat)
          (tb.baOriWcidArray wcid (Fin.ofNat 16 tid.toNat))).oriIndex k = tb.oriIndex k := by
        intro k
        rw [setOriWcidArray_oriIndex h8]
        split
        · rename_i hk
          rw [hk]
          rfl
        · rfl
      rw [SessionTables.setOriWcidArray, if_pos h8] at hset ⊢
      have hset' : OriAccounting { tb with
          ad := tb.ad.setWcidArray wcid (Fin.ofNat 16 tid.toNat + 8)
            (tb.baOriWcidArray wcid (Fin.ofNat 16 tid.toNat)) } :=
        h.congr rfl rfl (fun _ => ⟨rfl, rfl, Iff.rfl, Iff.rfl⟩) hset rfl
      refine hset'.modify (tb.baOriWcidArray wcid (Fin.ofNat 16 tid.toNat))
        (fun _ => initBaSession cfg pEntry wcid (Fin.ofNat 16 tid.toNat) timeOut) hw.symm ht.symm
        (iff_of_false (fun h => nomatch h) hne) (iff_of_false (fun h => nomatch h) fun hd => ?_)
      have hd' : (tb.baOriEntry (tb.baOriWcidArray wcid (Fin.ofNat 16 tid.toNat))).oriBaStatus =
        .originatorDone := hd
      rw [hd'] at hearly
      exact hearly rfl

/-- `BAOriSessionAdd` -/
theorem OriAccounting.add (h : OriAccounting tb) (pEntry : MacEntry) (wcid : Nat)
    (frame : FrameAddbaRsp) : OriAccounting (baOriSessionAdd tb pEntry wcid frame) := by
  rw [baOriSessionAdd]
  split
  · rename_i hcond
    exact h.establish hcond.1 hcond.2.2 fun _ => ⟨rfl, rfl, rfl⟩
  · exact h

end

/-! ## 6. Recipient sessions -/

/-- A flush does not change whose entry it is. -/
theorem refreshLoop_session :
    ∀ (fuel : Nat) (rx : Rx), (refreshLoop fuel rx).entry.session = rx.entry.session
  | 0, _ => rfl
  | fuel + 1, rx => by
    rw [refreshLoop, indicateHead]
    rcases baDequeue rx.entry.list with ⟨blk | blk, list⟩
    · rfl
    · exact refreshLoop_session fuel _

theorem refresh_entry (rx : Rx) :
    (baRefreshReorderingMpdus rx).entry.wcid = rx.entry.wcid ∧
      (baRefreshReorderingMpdus rx).entry.tid = rx.entry.tid ∧
      (baRefreshReorderingMpdus rx).entry.recBaStatus = rx.entry.recBaStatus := by
  have hsess : (baRefreshReorderingMpdus rx).entry.session = rx.entry.session :=
    refreshLoop_session rx.entry.list.qlen rx
  rw [BaRecEntry.session, BaRecEntry.session, Prod.mk.injEq, Prod.mk.injEq, Prod.mk.injEq] at hsess
  exact ⟨hsess.1, hsess.2.1, hsess.2.2.2⟩

/-- **A recipient session is opened** in the slot `i`: a free one, or the one it has already. -/
structure RecAdded (tb tb' : SessionTables) (wcid : Nat) (tid : Fin 16) (i : Nat) : Prop where
  mem : i ∈ Finset.Ico 1 maxLenOfBaRecTable
  peer : (tb'.ad.baRecEntry i).wcid = wcid
  traffic : (tb'.ad.baRecEntry i).tid = tid
  accepted : (tb'.ad.baRecEntry i).recBaStatus = .recipientAccept
  other : ∀ j ≠ i, tb'.ad.baRecEntry j = tb.ad.baRecEntry j
  cell : ∀ w t, tb'.ad.baRecWcidArray w t =
    if w = wcid ∧ t = tid then i else tb.ad.baRecWcidArray w t
  slot : (tb.ad.baRecWcidArray wcid tid = 0 ∧ tb.ad.numAsRecipient < maxLenOfBaRecTable - 1 ∧
      (tb.ad.baRecEntry i).recBaStatus = .recipientNone ∧
      tb'.ad.numAsRecipient = tb.ad.numAsRecipient + 1) ∨
    (tb.ad.baRecWcidArray wcid tid = i ∧ tb'.ad.numAsRecipient = tb.ad.numAsRecipient)
  bits : tb'.rxBaBitmap = setBit tb.rxBaBitmap wcid tid true

section

variable {tb tb' : SessionTables} {i : Nat} {wcid : Nat} {tid : Fin 16}

/-- **What `BARecSessionAdd` does**: there is no room, and nothing changes; or a session is opened. -/
theorem recSessionAdd_cases (hcount : tb.ad.numAsRecipient =
      countOf maxLenOfBaRecTable fun i => (tb.ad.baRecEntry i).recBaStatus ≠ .recipientNone)
    (wcid : Nat) (limit : UInt8) (frame : FrameAddbaReq)
    (hmem : tb.ad.baRecWcidArray wcid frame.tid ≠ 0 →
      tb.ad.baRecWcidArray wcid frame.tid ∈ Finset.Ico 1 maxLenOfBaRecTable) :
    (tb.ad.baRecWcidArray wcid frame.tid = 0 ∧
        ¬ tb.ad.numAsRecipient < maxLenOfBaRecTable - 1 ∧
        recSessionAdd tb wcid limit frame = (tb, false)) ∨
      ∃ i, RecAdded tb (recSessionAdd tb wcid limit frame).1 wcid frame.tid i := by
  rw [recSessionAdd, baRecSessionAdd]
  dsimp only
  by_cases hidx : tb.ad.baRecWcidArray wcid frame.tid = 0
  · rw [if_pos hidx, baTableAllocRecEntry]
    by_cases hfull : maxLenOfBaRecTable - 1 ≤ tb.ad.numAsRecipient
    · rw [if_pos hfull]
      exact .inl ⟨hidx, Nat.not_lt.mpr hfull, rfl⟩
    · right
      have hroom := Nat.not_le.mp hfull
      rw [hcount] at hroom
      obtain ⟨i, hi, hfree, hfind⟩ := scan_finds
        (fun i => decide ((tb.ad.baRecEntry i).recBaStatus = .recipientNone))
        (fun i => by rw [decide_eq_true_eq, not_not]) hroom
      rw [if_neg hfull, hfind]
      exact ⟨i, hi, congrArg BaRecEntry.wcid (if_pos rfl), congrArg BaRecEntry.tid (if_pos rfl),
        congrArg BaRecEntry.recBaStatus (if_pos rfl), fun j hj => (if_neg hj).trans (if_neg hj),
        fun _ _ => rfl, .inl ⟨hidx, Nat.not_le.mp hfull, not_not.mp hfree, rfl⟩, rfl⟩
  · rw [if_neg hidx]
    exact .inr ⟨_, hmem hidx, congrArg BaRecEntry.wcid (if_pos rfl),
      congrArg BaRecEntry.tid (if_pos rfl), congrArg BaRecEntry.recBaStatus (if_pos rfl),
      fun j hj => (if_neg hj).trans (if_neg hj), fun _ _ => rfl, .inr ⟨rfl, rfl⟩, rfl⟩

theorem recOwner_of_status (h : (tb.ad.baRecEntry i).recBaStatus ≠ .recipientNone) :
    tb.recOwner i = some ((tb.ad.baRecEntry i).wcid, (tb.ad.baRecEntry i).tid) :=
  if_neg h

theorem recOwner_of_none (h : (tb.ad.baRecEntry i).recBaStatus = .recipientNone) :
    tb.recOwner i = none :=
  if_pos h

theorem recIndex_of_lt (h : tid.val < numOfTid) :
    tb.recIndex (wcid, tid) = tb.ad.baRecWcidArray wcid tid :=
  if_pos h

/-- What an index that is not `0` leads to. -/
theorem RecAccounting.entry_of_index (h : RecAccounting tb) (h8 : tid.val < numOfTid)
    (hidx : tb.ad.baRecWcidArray wcid tid ≠ 0) :
    tb.ad.baRecWcidArray wcid tid ∈ Finset.Ico 1 maxLenOfBaRecTable ∧
      (tb.ad.baRecEntry (tb.ad.baRecWcidArray wcid tid)).recBaStatus ≠ .recipientNone ∧
      (tb.ad.baRecEntry (tb.ad.baRecWcidArray wcid tid)).wcid = wcid ∧
      (tb.ad.baRecEntry (tb.ad.baRecWcidArray wcid tid)).tid = tid := by
  obtain ⟨hmem, hown⟩ := h.matched.pointsBack (wcid, tid) (by rwa [recIndex_of_lt h8])
  rw [recIndex_of_lt h8] at hmem hown
  have hne : (tb.ad.baRecEntry (tb.ad.baRecWcidArray wcid tid)).recBaStatus ≠ .recipientNone := by
    intro hnone
    rw [recOwner_of_none hnone] at hown
    exact absurd hown.symm (Option.some_ne_none _)
  rw [recOwner_of_status hne, Option.some.injEq, Prod.mk.injEq] at hown
  exact ⟨hmem, hne, hown.1, hown.2⟩

/-- The index of an occupied slot, and that its `TID` is below eight. -/
theorem RecAccounting.index_of_entry (h : RecAccounting tb)
    (hi : i ∈ Finset.Ico 1 maxLenOfBaRecTable)
    (hs : (tb.ad.baRecEntry i).recBaStatus ≠ .recipientNone) :
    (tb.ad.baRecEntry i).tid.val < numOfTid ∧
      tb.ad.baRecWcidArray (tb.ad.baRecEntry i).wcid (tb.ad.baRecEntry i).tid = i := by
  have hfound := h.matched.found i hi _ (recOwner_of_status hs)
  rw [SessionTables.recIndex] at hfound
  by_cases h8 : (tb.ad.baRecEntry i).tid.val < numOfTid
  · rw [if_pos h8] at hfound
    exact ⟨h8, hfound⟩
  · rw [if_neg h8] at hfound
    exact absurd hfound.symm (ne_zero_of_mem hi)

/-- The recipient's index after one cell was written. -/
theorem recIndex_of_cell {idx : Nat} (h8 : tid.val < numOfTid)
    (hcell : ∀ w t, tb'.ad.baRecWcidArray w t =
      if w = wcid ∧ t = tid then idx else tb.ad.baRecWcidArray w t) (k : SessionKey) :
    tb'.recIndex k = if k = (wcid, tid) then idx else tb.recIndex k := by
  rw [SessionTables.recIndex, SessionTables.recIndex, hcell]
  by_cases hk : k = (wcid, tid)
  · rw [if_pos hk, hk, if_pos h8, if_pos ⟨rfl, rfl⟩]
  · rw [if_neg hk, if_neg (fun heq : k.1 = wcid ∧ k.2 = tid => hk (Prod.ext heq.1 heq.2))]

/-- The originator's index does not see the recipient's cells. -/
theorem oriIndex_of_cell {idx : Nat} (h8 : tid.val < numOfTid)
    (hcell : ∀ w t, tb'.ad.baRecWcidArray w t =
      if w = wcid ∧ t = tid then idx else tb.ad.baRecWcidArray w t) (k : SessionKey) :
    tb'.oriIndex k = tb.oriIndex k := by
  rw [SessionTables.oriIndex, SessionTables.oriIndex, SessionTables.baOriWcidArray,
    SessionTables.baOriWcidArray, hcell]
  by_cases hk : k.2.val < numOfTid
  · rw [if_pos hk, if_pos hk, if_neg]
    rintro ⟨-, ht⟩
    have hval := congrArg Fin.val ht
    rw [tid_add_eight hk] at hval
    rw [numOfTid] at h8
    omega
  · rw [if_neg hk, if_neg hk]

/-- **Opening a session** keeps the accounts, when its `TID` has a cell. -/
theorem RecAccounting.added (h : RecAccounting tb) (h8 : tid.val < numOfTid)
    (hadd : RecAdded tb tb' wcid tid i) : RecAccounting tb' := by
  have hindex := recIndex_of_cell h8 hadd.cell
  have hused : (tb'.ad.baRecEntry i).recBaStatus ≠ .recipientNone := by
    rw [hadd.accepted]
    exact fun hnone => nomatch hnone
  have hown : tb'.recOwner i = some (wcid, tid) := by
    rw [recOwner_of_status hused, hadd.peer, hadd.traffic]
  have hbits : Flagged tb'.recIndex
      (fun i => (tb'.ad.baRecEntry i).recBaStatus = .recipientAccept)
      fun k => tb'.rxBaBitmap k.1 k.2 := by
    refine h.rxBaBitmap.change (wcid, tid) i (fun k' hk' h0 => ?_)
      (fun k' hk' => (hindex k').trans (if_neg hk')) (fun j hj => by rw [hadd.other j hj])
      (fun k' hk' => ?_) ?_
    · rcases hadd.slot with ⟨-, -, hfree, -⟩ | ⟨hcell, -⟩
      · exact h.matched.ne_of_free h0 (recOwner_of_none hfree)
      · intro heq
        have hi0 : tb.ad.baRecWcidArray wcid tid ≠ 0 := by
          rw [hcell]
          exact ne_zero_of_mem hadd.mem
        obtain ⟨-, hs, hw, ht⟩ := h.entry_of_index h8 hi0
        rw [hcell] at hs hw ht
        refine h.matched.ne_of_ne hk' h0 ((recOwner_of_status hs).trans ?_) heq
        rw [hw, ht]
    · rw [hadd.bits]
      exact if_neg fun heq => hk' (Prod.ext heq.1 heq.2)
    · rw [hadd.bits, hindex, if_pos rfl, setBit, if_pos ⟨rfl, rfl⟩]
      exact ⟨fun _ => ⟨ne_zero_of_mem hadd.mem, hadd.accepted⟩, fun _ => rfl⟩
  refine ⟨?_, ?_, hbits⟩
  · rcases hadd.slot with ⟨-, -, hfree, hnum⟩ | ⟨hcell, hnum⟩
    · rw [hnum, h.numAsRecipient]
      exact (countOf_insert hadd.mem (fun hne => hne hfree) hused
        fun j hj => by rw [hadd.other j hj]).symm
    · rw [hnum, h.numAsRecipient]
      refine (countOf_congr fun j _ => ?_).symm
      rcases eq_or_ne j i with rfl | hj
      · refine iff_of_true hused ?_
        rw [← hcell]
        exact (h.entry_of_index h8 (by rw [hcell]; exact ne_zero_of_mem hadd.mem)).2.1
      · rw [hadd.other j hj]
  · rcases hadd.slot with ⟨hidx, -, hfree, -⟩ | ⟨hcell, -⟩
    · refine h.matched.claim (k := (wcid, tid)) hadd.mem (recOwner_of_none hfree)
        ((recIndex_of_lt h8).trans hidx) hindex fun j _ => ?_
      by_cases hj : j = i
      · rw [if_pos hj, hj, hown]
      · rw [if_neg hj, SessionTables.recOwner, SessionTables.recOwner, hadd.other j hj]
    · have hi0 : tb.ad.baRecWcidArray wcid tid ≠ 0 := by
        rw [hcell]
        exact ne_zero_of_mem hadd.mem
      obtain ⟨-, hs, hw, ht⟩ := h.entry_of_index h8 hi0
      rw [hcell] at hs hw ht
      refine h.matched.congr (fun k => ?_) fun j _ => ?_
      · rw [hindex]
        split
        · rename_i hk
          rw [hk, recIndex_of_lt h8, hcell]
        · rfl
      · rcases eq_or_ne j i with rfl | hj
        · rw [hown, recOwner_of_status hs, hw, ht]
        · rw [SessionTables.recOwner, SessionTables.recOwner, hadd.other j hj]

/-- **A recipient session is closed**: its slot, its cell and its bit are cleared. -/
structure RecReleased (tb tb' : SessionTables) (wcid : Nat) (tid : Fin 16) (i : Nat) : Prop where
  slot : tb.ad.baRecWcidArray wcid tid = i
  ne_zero : i ≠ 0
  closed : (tb'.ad.baRecEntry i).recBaStatus = .recipientNone
  other : ∀ j ≠ i, tb'.ad.baRecEntry j = tb.ad.baRecEntry j
  cell : ∀ w t, tb'.ad.baRecWcidArray w t =
    if w = wcid ∧ t = tid then 0 else tb.ad.baRecWcidArray w t
  count : tb'.ad.numAsRecipient = tb.ad.numAsRecipient - 1
  bits : tb'.rxBaBitmap = setBit tb.rxBaBitmap wcid tid false

variable (wcid) in
/-- **What `BARecSessionTearDown` does** when the `TID` has a cell. -/
theorem recSessionTearDown_cases (h : RecAccounting tb)
    (haccepted : ∀ i ∈ Finset.Ico 1 maxLenOfBaRecTable,
      (tb.ad.baRecEntry i).recBaStatus ≠ .recipientNone →
        (tb.ad.baRecEntry i).recBaStatus = .recipientAccept)
    (h8 : tid.val < numOfTid) (bPassive elemAlloc : Bool) :
    recSessionTearDown tb wcid tid bPassive elemAlloc = tb ∨
      ∃ i, RecReleased tb (recSessionTearDown tb wcid tid bPassive elemAlloc) wcid tid i := by
  rw [recSessionTearDown, baRecSessionTearDown]
  dsimp only
  by_cases hwcid : maxLenOfMacTable ≤ wcid
  · left
    rw [if_pos hwcid, if_neg fun hc => absurd hc.1 (Nat.not_lt.mpr hwcid)]
  by_cases hidx : tb.ad.baRecWcidArray wcid tid = 0
  · left
    rw [if_neg hwcid, if_pos hidx, if_neg fun hc => hc.2.1 hidx]
  obtain ⟨hmem, hs, hw, ht⟩ := h.entry_of_index h8 hidx
  have hacc := haccepted _ hmem hs
  rw [if_neg hwcid, if_neg hidx, if_pos ⟨ht.symm, hacc⟩]
  by_cases halloc : (!bPassive && !elemAlloc) = true
  · left
    have hno : ¬ (bPassive || elemAlloc) = true := by
      rw [← Bool.not_or, Bool.not_eq_true'] at halloc
      rw [halloc]
      exact Bool.false_ne_true
    rw [if_pos halloc, if_neg fun hc => hno hc.2.2.2]
  · right
    have hyes : (bPassive || elemAlloc) = true := by
      rwa [← Bool.not_or, Bool.not_eq_true', Bool.not_eq_false] at halloc
    rw [if_neg halloc, if_pos ⟨Nat.not_le.mp hwcid, hidx, ⟨ht.symm, hacc⟩, hyes⟩]
    set i := tb.ad.baRecWcidArray wcid tid
    obtain ⟨hrw, hrt, hrs⟩ := refresh_entry (tb.ad.rx i)
    set ad : Adapter := ((tb.ad.store i (baRefreshReorderingMpdus (tb.ad.rx i))).modifyEntry i
      fun e => { e with lastIndSeq := resetRcvSeq, baWinSize := 0 }).setWcidArray wcid tid 0
    have hi : ad.baRecEntry i = { (baRefreshReorderingMpdus (tb.ad.rx i)).entry with
        lastIndSeq := resetRcvSeq, baWinSize := 0 } := by
      rw [Adapter.setWcidArray_entry, Adapter.modifyEntry_entry_self, Adapter.store_entry_self]
    have hother : ∀ j ≠ i, ad.baRecEntry j = tb.ad.baRecEntry j :=
      fun j hj => (if_neg hj).trans (if_neg hj)
    have hiw : (ad.baRecEntry i).wcid = wcid := by
      rw [hi]
      exact hrw.trans hw
    have hit : (ad.baRecEntry i).tid = tid := by
      rw [hi]
      exact hrt.trans ht
    have his : (ad.baRecEntry i).recBaStatus ≠ .recipientNone := by
      rw [hi]
      exact fun hnone => hs (hrs.symm.trans hnone)
    have hrange := Finset.mem_Ico.mp hmem
    rw [baTableFreeRecEntry, if_neg (not_or.mpr ⟨hidx, Nat.not_le.mpr hrange.2⟩)]
    dsimp only
    rw [if_neg his, hiw, hit]
    refine ⟨i, rfl, hidx, congrArg BaRecEntry.recBaStatus (if_pos rfl),
      fun j hj => (if_neg hj).trans (hother j hj), fun w t => ?_, rfl, ?_⟩
    · change (if w = wcid ∧ t = tid then 0 else if w = wcid ∧ t = tid then 0
        else tb.ad.baRecWcidArray w t) = _
      split
      · rfl
      · rfl
    · change setBit tb.rxBaBitmap wcid (tb.ad.baRecEntry i).tid false = _
      rw [ht]

/-- **Closing a session** keeps the accounts. -/
theorem RecAccounting.released (h : RecAccounting tb) (h8 : tid.val < numOfTid)
    (hrel : RecReleased tb tb' wcid tid i) : RecAccounting tb' := by
  have hindex := recIndex_of_cell h8 hrel.cell
  have hidx : tb.ad.baRecWcidArray wcid tid ≠ 0 := by
    rw [hrel.slot]
    exact hrel.ne_zero
  obtain ⟨hmem, hs, hw, ht⟩ := h.entry_of_index h8 hidx
  rw [hrel.slot] at hmem hs hw ht
  have hown : tb.recOwner i = some (wcid, tid) := by
    rw [recOwner_of_status hs, hw, ht]
  refine ⟨?_, ?_, ?_⟩
  · rw [hrel.count, h.numAsRecipient]
    exact (countOf_erase hmem hs (fun hne => hne hrel.closed)
      fun j hj => by rw [hrel.other j hj]).symm
  · refine h.matched.release hmem hown hindex fun j _ => ?_
    by_cases hj : j = i
    · rw [if_pos hj, hj]
      exact recOwner_of_none hrel.closed
    · rw [if_neg hj, SessionTables.recOwner, SessionTables.recOwner, hrel.other j hj]
  · refine h.rxBaBitmap.change (wcid, tid) i (fun k' hk' h0 => h.matched.ne_of_ne hk' h0 hown)
      (fun k' hk' => (hindex k').trans (if_neg hk')) (fun j hj => by rw [hrel.other j hj])
      (fun k' hk' => ?_) ?_
    · rw [hrel.bits]
      exact if_neg fun heq => hk' (Prod.ext heq.1 heq.2)
    · rw [hrel.bits, hindex, if_pos rfl, setBit, if_pos ⟨rfl, rfl⟩]
      exact ⟨fun hbit => absurd hbit Bool.false_ne_true, fun h0 => absurd rfl h0.1⟩

end

/-! ## 7. Both sides -/

/-- The exact accounting, and that a recipient session in use is an accepted one. -/
structure Ledger (tb : SessionTables) : Prop where
  originator : OriAccounting tb
  recipient : RecAccounting tb
  accepted : ∀ i ∈ Finset.Ico 1 maxLenOfBaRecTable,
    (tb.ad.baRecEntry i).recBaStatus ≠ .recipientNone →
      (tb.ad.baRecEntry i).recBaStatus = .recipientAccept

/-- An operation on originator sessions leaves the recipient side as it is. -/
structure SameRecipients (tb tb' : SessionTables) : Prop where
  entry : tb'.ad.baRecEntry = tb.ad.baRecEntry
  count : tb'.ad.numAsRecipient = tb.ad.numAsRecipient
  index : ∀ k, tb'.recIndex k = tb.recIndex k
  bits : tb'.rxBaBitmap = tb.rxBaBitmap

section

variable {tb tb' tb'' : SessionTables} {wcid idx : Nat} {tid : Fin 16}

theorem SameRecipients.refl : SameRecipients tb tb :=
  ⟨rfl, rfl, fun _ => rfl, rfl⟩

theorem SameRecipients.trans (h : SameRecipients tb tb') (h' : SameRecipients tb' tb'') :
    SameRecipients tb tb'' where
  entry := h'.entry.trans h.entry
  count := h'.count.trans h.count
  index := fun k => (h'.index k).trans (h.index k)
  bits := h'.bits.trans h.bits

theorem Ledger.ofOriginator (h : Ledger tb) (hori : OriAccounting tb')
    (hsame : SameRecipients tb tb') : Ledger tb' where
  originator := hori
  recipient := h.recipient.congr hsame.count (fun i => by rw [hsame.entry]; exact ⟨rfl, rfl, rfl⟩)
    hsame.index hsame.bits
  accepted := by
    rw [hsame.entry]
    exact h.accepted

theorem sameRecipients_setOriWcidArray (tb : SessionTables) (wcid : Nat) (tid : Fin 16)
    (idx : Nat) : SameRecipients tb (tb.setOriWcidArray wcid tid idx) where
  entry := by
    rw [SessionTables.setOriWcidArray]
    split
    · rfl
    · rfl
  count := by
    rw [SessionTables.setOriWcidArray]
    split
    · rfl
    · rfl
  index := setOriWcidArray_recIndex
  bits := by
    rw [SessionTables.setOriWcidArray]
    split
    · rfl
    · rfl

theorem sameRecipients_free : SameRecipients tb (baTableFreeOriEntry tb idx) := by
  rw [baTableFreeOriEntry]
  split
  · exact .refl
  · dsimp only
    split
    · exact .refl
    · refine (sameRecipients_setOriWcidArray tb (tb.baOriEntry idx).wcid
        (tb.baOriEntry idx).tid 0).trans ?_
      split
      · exact ⟨rfl, rfl, fun _ => rfl, rfl⟩
      · exact ⟨rfl, rfl, fun _ => rfl, rfl⟩

theorem Ledger.free (h : Ledger tb) (idx : Nat) : Ledger (baTableFreeOriEntry tb idx) :=
  h.ofOriginator (h.originator.free idx) sameRecipients_free

theorem Ledger.setUp (h : Ledger tb) (cfg : CommonCfg) (pEntry : MacEntry) (wcid : Nat)
    (tid : UInt8) (timeOut delayTime : Nat) (isForced : Bool) :
    Ledger (baOriSessionSetUp tb cfg pEntry wcid tid timeOut delayTime isForced).1 := by
  refine h.ofOriginator (h.originator.setUp cfg pEntry wcid tid timeOut delayTime isForced) ?_
  rw [baOriSessionSetUp]
  split
  · exact .refl
  split
  · exact .refl
  split
  · exact .refl
  dsimp only
  have hset : ∀ (tb₁ : SessionTables) (i idx : Nat), SameRecipients tb tb₁ →
      SameRecipients tb ((tb₁.setOriWcidArray wcid (Fin.ofNat 16 tid.toNat) idx).modifyOriEntry i
        fun _ => initBaSession cfg pEntry wcid (Fin.ofNat 16 tid.toNat) timeOut) := by
    intro tb₁ i idx hsame
    have hcell := hsame.trans
      (sameRecipients_setOriWcidArray tb₁ wcid (Fin.ofNat 16 tid.toNat) idx)
    exact ⟨hcell.entry, hcell.count, hcell.index, hcell.bits⟩
  by_cases hidx : tb.baOriWcidArray wcid (Fin.ofNat 16 tid.toNat) = 0
  · rw [if_pos hidx]
    rcases h.originator.alloc (tb.baOriWcidArray wcid (Fin.ofNat 16 tid.toNat)) with
      ⟨i, -, -, halloc⟩ | halloc
    · rw [halloc]
      dsimp only
      have hsame : SameRecipients tb ({ tb with
          numAsOriginator := tb.numAsOriginator + 1 }.modifyOriEntry i
            fun e => { e with oriBaStatus := .originatorUsed }) :=
        ⟨rfl, rfl, fun _ => rfl, rfl⟩
      split
      · exact hsame
      · exact hset _ _ _ hsame
    · rw [halloc]
      exact .refl
  · rw [if_neg hidx]
    dsimp only
    split
    · exact .refl
    · exact hset _ _ _ .refl

theorem Ledger.add (h : Ledger tb) (pEntry : MacEntry) (wcid : Nat) (frame : FrameAddbaRsp) :
    Ledger (baOriSessionAdd tb pEntry wcid frame) := by
  refine h.ofOriginator (h.originator.add pEntry wcid frame) ?_
  rw [baOriSessionAdd]
  split
  · exact ⟨rfl, rfl, fun _ => rfl, rfl⟩
  · exact .refl

theorem Ledger.oriTearDown (h : Ledger tb) (wcid : Nat) (tid : Fin 16)
    (bPassive elemAlloc : Bool) :
    Ledger (baOriSessionTearDown tb wcid tid bPassive elemAlloc) := by
  rw [baOriSessionTearDown]
  split
  · exact h
  · dsimp only
    split
    · exact h
    · split
      · exact h
      · exact h.free _

theorem Ledger.setupTimeout (h : Ledger tb) (idx : Nat) (off scanning : Bool) :
    Ledger (baOriSessionSetupTimeout tb idx off scanning) := by
  rw [baOriSessionSetupTimeout]
  split
  · exact h
  · dsimp only
    split
    · split
      · exact h
      · exact h.ofOriginator (h.originator.modify _ _ rfl rfl Iff.rfl Iff.rfl)
          ⟨rfl, rfl, fun _ => rfl, rfl⟩
    · exact h.free _

/-- The originator's fields are those of before, and its cells too. -/
theorem Ledger.ofRecipient (h : Ledger tb) (hrec : RecAccounting tb')
    (hentry : tb'.baOriEntry = tb.baOriEntry) (hnum : tb'.numAsOriginator = tb.numAsOriginator)
    (hdone : tb'.numDoneOriginator = tb.numDoneOriginator)
    (hbits : tb'.txBaBitmap = tb.txBaBitmap) (hindex : ∀ k, tb'.oriIndex k = tb.oriIndex k)
    (haccepted : ∀ i ∈ Finset.Ico 1 maxLenOfBaRecTable,
      (tb'.ad.baRecEntry i).recBaStatus ≠ .recipientNone →
        (tb'.ad.baRecEntry i).recBaStatus = .recipientAccept) : Ledger tb' where
  originator := h.originator.congr hnum hdone
    (fun i => by rw [hentry]; exact ⟨rfl, rfl, Iff.rfl, Iff.rfl⟩) hindex hbits
  recipient := hrec
  accepted := haccepted

variable (tb) in
theorem recSessionAdd_originator (wcid : Nat) (limit : UInt8) (frame : FrameAddbaReq) :
    (recSessionAdd tb wcid limit frame).1.baOriEntry = tb.baOriEntry ∧
      (recSessionAdd tb wcid limit frame).1.numAsOriginator = tb.numAsOriginator ∧
      (recSessionAdd tb wcid limit frame).1.numDoneOriginator = tb.numDoneOriginator ∧
      (recSessionAdd tb wcid limit frame).1.txBaBitmap = tb.txBaBitmap := by
  rw [recSessionAdd]
  rcases baRecSessionAdd tb.ad wcid limit frame with ⟨ad, status | status⟩
  · exact ⟨rfl, rfl, rfl, rfl⟩
  · exact ⟨rfl, rfl, rfl, rfl⟩

/-- Where the indices of the cells lie, whichever side they belong to. -/
theorem Ledger.cell_mem (h : Ledger tb) (hidx : tb.ad.baRecWcidArray wcid tid ≠ 0) :
    tb.ad.baRecWcidArray wcid tid ∈ Finset.Ico 1 maxLenOfBaRecTable := by
  by_cases h8 : tid.val < numOfTid
  · exact (h.recipient.entry_of_index h8 hidx).1
  · -- the cell is one of the originator's
    have hle : (8 : Fin 16) ≤ tid := Fin.le_def.mpr (Nat.not_lt.mp h8)
    have hlow : (tid - 8).val < numOfTid := by
      rw [Fin.sub_val_of_le hle]
      exact (Nat.sub_lt_iff_lt_add (Nat.not_lt.mp h8)).mpr tid.isLt
    have hcell : tb.baOriWcidArray wcid (tid - 8) = tb.ad.baRecWcidArray wcid tid := by
      have hback : tid - 8 + 8 = tid := by
        refine Fin.ext ?_
        rw [tid_add_eight hlow, Fin.sub_val_of_le hle]
        exact Nat.sub_add_cancel (Nat.not_lt.mp h8)
      rw [SessionTables.baOriWcidArray, if_pos hlow, hback]
    rw [← hcell] at hidx ⊢
    exact (h.originator.entry_of_index hidx).1

theorem Ledger.recAdd (h : Ledger tb) (wcid : Nat) (limit : UInt8) (frame : FrameAddbaReq)
    (hok : ¬ AddsBeyond tb wcid frame.tid) : Ledger (recSessionAdd tb wcid limit frame).1 := by
  rcases recSessionAdd_cases h.recipient.numAsRecipient wcid limit frame h.cell_mem with
    ⟨-, -, hsame⟩ | ⟨i, hadd⟩
  · rw [hsame]
    exact h
  · have h8 : frame.tid.val < numOfTid := by
      by_contra hbeyond
      refine hok ⟨Nat.not_lt.mp hbeyond, ?_⟩
      rcases hadd.slot with ⟨-, hroom, -, -⟩ | ⟨hcell, -⟩
      · exact .inr hroom
      · rw [hcell]
        exact .inl (ne_zero_of_mem hadd.mem)
    obtain ⟨hentry, hnum, hdone, hbits⟩ := recSessionAdd_originator tb wcid limit frame
    refine h.ofRecipient (h.recipient.added h8 hadd) hentry hnum hdone hbits
      (oriIndex_of_cell h8 hadd.cell) fun j hj hs => ?_
    rcases eq_or_ne j i with rfl | hji
    · exact hadd.accepted
    · rw [hadd.other j hji] at hs ⊢
      exact h.accepted j hj hs

/-- A tear-down under a `TID` without a cell does nothing, unless it hits a slot in use. -/
theorem recSessionTearDown_beyond (h : Ledger tb) (h8 : numOfTid ≤ tid.val)
    (hok : ¬ FreesBeyond tb wcid tid) (bPassive elemAlloc : Bool) :
    recSessionTearDown tb wcid tid bPassive elemAlloc = tb := by
  rw [recSessionTearDown, baRecSessionTearDown]
  dsimp only
  by_cases hwcid : maxLenOfMacTable ≤ wcid
  · rw [if_pos hwcid, if_neg fun hc => absurd hc.1 (Nat.not_lt.mpr hwcid)]
  by_cases hidx : tb.ad.baRecWcidArray wcid tid = 0
  · rw [if_neg hwcid, if_pos hidx, if_neg fun hc => hc.2.1 hidx]
  have hnone : (tb.ad.baRecEntry (tb.ad.baRecWcidArray wcid tid)).recBaStatus =
      .recipientNone := by
    by_contra hs
    exact hok ⟨Nat.not_le.mp hwcid, h8, hidx, hs⟩
  have hacc : ¬ (tid = (tb.ad.baRecEntry (tb.ad.baRecWcidArray wcid tid)).tid ∧
      (tb.ad.baRecEntry (tb.ad.baRecWcidArray wcid tid)).recBaStatus = .recipientAccept) := by
    rintro ⟨-, hacc⟩
    rw [hnone] at hacc
    exact nomatch hacc
  have hrange := Finset.mem_Ico.mp (h.cell_mem hidx)
  rw [if_neg hwcid, if_neg hidx, if_neg hacc, if_neg fun hc => hacc hc.2.2.1, baTableFreeRecEntry,
    if_neg (not_or.mpr ⟨hidx, Nat.not_le.mpr hrange.2⟩)]
  dsimp only
  rw [if_pos hnone]

theorem Ledger.recTearDown (h : Ledger tb) (wcid : Nat) (tid : Fin 16) (bPassive elemAlloc : Bool)
    (hok : ¬ FreesBeyond tb wcid tid) :
    Ledger (recSessionTearDown tb wcid tid bPassive elemAlloc) := by
  by_cases h8 : tid.val < numOfTid
  · rcases recSessionTearDown_cases wcid h.recipient h.accepted h8 bPassive elemAlloc with
      hsame | ⟨i, hrel⟩
    · rw [hsame]
      exact h
    · refine h.ofRecipient (h.recipient.released h8 hrel) rfl rfl rfl rfl
        (oriIndex_of_cell h8 hrel.cell) fun j hj hs => ?_
      rcases eq_or_ne j i with rfl | hji
      · exact absurd hrel.closed hs
      · rw [hrel.other j hji] at hs ⊢
        exact h.accepted j hj hs
  · rw [recSessionTearDown_beyond h (Nat.not_lt.mp h8) hok]
    exact h

theorem Ledger.idleTimeout (h : Ledger tb) (idx : Nat) (now : Ulong) :
    Ledger (recSessionIdleTimeout tb idx now) := by
  rw [recSessionIdleTimeout, baRecSessionIdleTimeout]
  split
  · obtain ⟨hrw, hrt, hrs⟩ := refresh_entry (tb.ad.rx idx)
    set ad := tb.ad.store idx (baRefreshReorderingMpdus (tb.ad.rx idx))
    have hsame : ∀ i, (ad.baRecEntry i).wcid = (tb.ad.baRecEntry i).wcid ∧
        (ad.baRecEntry i).tid = (tb.ad.baRecEntry i).tid ∧
        (ad.baRecEntry i).recBaStatus = (tb.ad.baRecEntry i).recBaStatus := by
      intro i
      rcases eq_or_ne i idx with rfl | hi
      · rw [Adapter.store_entry_self]
        exact ⟨hrw, hrt, hrs⟩
      · rw [show ad.baRecEntry i = tb.ad.baRecEntry i from if_neg hi]
        exact ⟨rfl, rfl, rfl⟩
    refine h.ofRecipient (h.recipient.congr rfl hsame (fun _ => rfl) rfl) rfl rfl rfl rfl
      (fun _ => rfl) fun i hi => ?_
    change (ad.baRecEntry i).recBaStatus ≠ _ → (ad.baRecEntry i).recBaStatus = _
    rw [(hsame i).2.2]
    exact h.accepted i hi
  · exact h

theorem Ledger.tearDownAll (h : Ledger tb) (wcid : Nat) (oriAlloc recAlloc : Nat → Bool) :
    Ledger (baSessionTearDownAll tb wcid oriAlloc recAlloc) := by
  rw [baSessionTearDownAll]
  refine List.foldlRecOn (List.range numOfTid) _ h fun tb h i hi => ?_
  -- only the eight cells of the arrays are gone through
  have hlt : i < numOfTid := List.mem_range.mp hi
  refine (h.oriTearDown wcid _ false _).recTearDown wcid _ false _ fun hbeyond => ?_
  have h8 : numOfTid ≤ i % 16 := hbeyond.2.1
  exact absurd (Nat.lt_of_le_of_lt (Nat.mod_le i 16) hlt) (Nat.not_lt.mpr h8)

/-! ## 8. Steps and runs -/

/-- **A step that does not misname keeps the accounts.** -/
theorem Ledger.step (h : Ledger tb) (op : TableOp) (hok : ¬ Misnames tb op) :
    Ledger (tableStep tb op) := by
  cases op with
  | oriSessionSetUp cfg pEntry wcid tid timeOut delayTime isForced => exact h.setUp ..
  | oriSessionAdd pEntry wcid frame => exact h.add ..
  | oriSessionTearDown wcid tid bPassive elemAlloc => exact h.oriTearDown ..
  | oriSessionSetupTimeout idx off scanning => exact h.setupTimeout ..
  | recSessionAdd wcid rxBaWinLimit frame => exact h.recAdd wcid rxBaWinLimit frame hok
  | recSessionTearDown wcid tid bPassive elemAlloc => exact h.recTearDown wcid tid _ _ hok
  | recSessionIdleTimeout idx now32 => exact h.idleTimeout ..
  | sessionTearDownAll wcid oriAlloc recAlloc => exact h.tearDownAll ..
  | peerAddBaReq cfg pMacEntry wcid msg =>
    rw [tableStep, peerAddBaReqAction]
    by_cases hwcid : maxLenOfMacTable ≤ wcid
    · rw [if_pos hwcid]
      exact h
    · rw [if_neg hwcid]
      dsimp only
      by_cases hsane : peerAddBaReqActionSanity msg = true
      · rw [if_pos hsane]
        by_cases hht : (!cfg.bBADecline && pMacEntry.isHtSta) = true
        · rw [if_pos hht]
          rw [Bool.and_eq_true, Bool.not_eq_true'] at hht
          have hadd := h.recAdd wcid cfg.rxBaWinLimit msg.frame
            fun hbeyond => hok ⟨Nat.not_le.mp hwcid, hsane, hht.1, hht.2, hbeyond⟩
          rcases hres : recSessionAdd tb wcid cfg.rxBaWinLimit msg.frame with ⟨tb', added | added⟩
          · rw [hres] at hadd
            exact hadd
          · rw [hres] at hadd
            exact hadd
        · rw [if_neg hht]
          exact h
      · rw [if_neg hsane]
        exact h
  | peerAddBaRsp cfg pEntry wcid msg =>
    rw [tableStep, peerAddBaRspAction]
    have hdecline : ∀ {tb' : SessionTables} (bitmap : Nat → Fin 16 → Bool), Ledger tb' →
        Ledger { tb' with baDeclineBitmap := bitmap } := by
      intro tb' bitmap h'
      exact ⟨⟨h'.originator.1, h'.originator.2, h'.originator.3, h'.originator.4⟩,
        ⟨h'.recipient.1, h'.recipient.2, h'.recipient.3⟩, h'.accepted⟩
    split
    · exact h
    split
    · dsimp only
      have hanswer : Ledger (if msg.frame.statusCode = 0 then
          baOriSessionAdd tb pEntry wcid msg.frame
          else baOriSessionTearDown tb wcid msg.frame.tid true false) := by
        split
        · exact h.add ..
        · exact h.oriTearDown ..
      split
      · exact hdecline _ hanswer
      · exact hanswer
    · exact h
  | peerDelBa wcid msg =>
    rw [tableStep, peerDelBaAction]
    split
    · rename_i hsane
      split
      · rename_i hinit
        exact h.recTearDown wcid msg.tid _ _ fun hbeyond => hok ⟨hsane, hinit, hbeyond⟩
      · exact h.oriTearDown ..
    · exact h

theorem Ledger.accounting (h : Ledger tb) : Accounting tb :=
  ⟨h.originator, h.recipient⟩

/-- A session opened under a `TID` without a cell occupies a slot that no cell leads to. -/
theorem Ledger.not_accounting_recAdd (h : Ledger tb) (wcid : Nat) (limit : UInt8)
    (frame : FrameAddbaReq) (hbeyond : AddsBeyond tb wcid frame.tid) :
    ¬ Accounting (recSessionAdd tb wcid limit frame).1 := by
  intro hacc
  rcases recSessionAdd_cases h.recipient.numAsRecipient wcid limit frame h.cell_mem with
    ⟨hcell, hfull, -⟩ | ⟨i, hadd⟩
  · rcases hbeyond.2 with hne | hroom
    · exact hne hcell
    · exact hfull hroom
  · have hused : ((recSessionAdd tb wcid limit frame).1.ad.baRecEntry i).recBaStatus ≠
        .recipientNone := by
      rw [hadd.accepted]
      exact fun hnone => nomatch hnone
    have h8 := (hacc.recipient.index_of_entry hadd.mem hused).1
    rw [hadd.traffic] at h8
    exact absurd h8 (Nat.not_lt.mpr hbeyond.1)

/-- A slot freed under a foreign name leaves the bit of its session set. -/
theorem Ledger.not_accounting_recTearDown (h : Ledger tb) (wcid : Nat) (tid : Fin 16)
    (bPassive elemAlloc : Bool) (hbeyond : FreesBeyond tb wcid tid) :
    ¬ Accounting (recSessionTearDown tb wcid tid bPassive elemAlloc) := by
  intro hacc
  obtain ⟨hwcid, h8, hidx, hs⟩ := hbeyond
  set i := tb.ad.baRecWcidArray wcid tid with hi
  have hmem : i ∈ Finset.Ico 1 maxLenOfBaRecTable := h.cell_mem hidx
  obtain ⟨hlow, hcell⟩ := h.recipient.index_of_entry hmem hs
  have hstat := h.accepted i hmem hs
  set w := (tb.ad.baRecEntry i).wcid with hw
  set t := (tb.ad.baRecEntry i).tid with ht
  -- the entry is another session's, so the bitmap is not touched
  have hne : ¬ (tid = t ∧ (tb.ad.baRecEntry i).recBaStatus = .recipientAccept) := by
    rintro ⟨heq, -⟩
    rw [heq] at h8
    exact absurd hlow (Nat.not_lt.mpr h8)
  have hbit : tb.rxBaBitmap w t = true := by
    refine (h.recipient.rxBaBitmap (w, t)).mpr ?_
    rw [recIndex_of_lt hlow, hcell]
    exact ⟨hidx, hstat⟩
  have hrange := Finset.mem_Ico.mp hmem
  have hresult : (recSessionTearDown tb wcid tid bPassive elemAlloc).rxBaBitmap w t = true ∧
      (recSessionTearDown tb wcid tid bPassive elemAlloc).ad.baRecWcidArray w t = 0 := by
    rw [recSessionTearDown, baRecSessionTearDown]
    dsimp only
    rw [if_neg (Nat.not_le.mpr hwcid), ← hi, if_neg hidx, if_neg hne,
      if_neg fun hc => hne hc.2.2.1, baTableFreeRecEntry,
      if_neg (not_or.mpr ⟨hidx, Nat.not_le.mpr hrange.2⟩)]
    dsimp only
    rw [if_neg hs]
    exact ⟨hbit, if_pos ⟨rfl, rfl⟩⟩
  have hflag := (hacc.recipient.rxBaBitmap (w, t)).mp hresult.1
  rw [recIndex_of_lt hlow] at hflag
  exact hflag.1 hresult.2

/-- **A step that misnames breaks them.** -/
theorem Ledger.not_accounting_step (h : Ledger tb) (op : TableOp) (hbad : Misnames tb op) :
    ¬ Accounting (tableStep tb op) := by
  cases op with
  | recSessionAdd wcid rxBaWinLimit frame => exact h.not_accounting_recAdd wcid _ frame hbad
  | recSessionTearDown wcid tid bPassive elemAlloc =>
    exact h.not_accounting_recTearDown wcid tid _ _ hbad
  | peerAddBaReq cfg pMacEntry wcid msg =>
    obtain ⟨hwcid, hsane, hdecline, hht, hbeyond⟩ := hbad
    have hnot := h.not_accounting_recAdd wcid cfg.rxBaWinLimit msg.frame hbeyond
    rw [tableStep, peerAddBaReqAction, if_neg (Nat.not_le.mpr hwcid)]
    dsimp only
    rw [if_pos hsane, hdecline, hht, if_pos (show (!false && true) = true from rfl)]
    rcases hres : recSessionAdd tb wcid cfg.rxBaWinLimit msg.frame with ⟨tb', added | added⟩
    · rw [hres] at hnot
      exact hnot
    · rw [hres] at hnot
      exact hnot
  | peerDelBa wcid msg =>
    obtain ⟨hsane, hinit, hbeyond⟩ := hbad
    rw [tableStep, peerDelBaAction, if_pos hsane, if_pos hinit]
    exact h.not_accounting_recTearDown wcid msg.tid _ _ hbeyond
  | _ => exact absurd hbad id

theorem ledger_init (freelist : Nat) : Ledger (sessionTablesInit freelist) where
  originator := by
    have hindex : ∀ k, (sessionTablesInit freelist).oriIndex k = 0 := by
      intro k
      rw [SessionTables.oriIndex, SessionTables.baOriWcidArray]
      split
      · rfl
      · rfl
    exact ⟨(countOf_eq_zero fun _ hs => hs rfl).symm,
      (countOf_eq_zero fun _ hs => nomatch hs).symm,
      Exact.empty hindex fun _ => rfl, Flagged.empty hindex fun _ => rfl⟩
  recipient := by
    have hindex : ∀ k, (sessionTablesInit freelist).recIndex k = 0 := by
      intro k
      rw [SessionTables.recIndex]
      split
      · rfl
      · rfl
    exact ⟨(countOf_eq_zero fun _ hs => hs rfl).symm, Exact.empty hindex fun _ => rfl,
      Flagged.empty hindex fun _ => rfl⟩
  accepted := fun i _ hs => absurd rfl hs

end

/-- **The accounting is exact in every state of a run** if and only if no step of it misnames: it is
exact as long as none does, and the first that does breaks it. -/
theorem accounting_iff (freelist : Nat) (ops : List TableOp) :
    (∀ done rest, ops = done ++ rest →
        Accounting (Run.final tableStep (sessionTablesInit freelist) done)) ↔
      Run.StepsMeet tableStep (fun tb op => ¬ Misnames tb op) (sessionTablesInit freelist) ops :=
  Run.always_iff Ledger Accounting (fun _ h => h.accounting) (fun _ op h hok => h.step op hok)
    (fun _ op h hbad => h.not_accounting_step op (not_not.mp hbad)) (ledger_init freelist)

namespace Example

def cfg : CommonCfg where
  autoBA := true
  bBADecline := false
  rxBaWinLimit := 64
  tgnWifiOn := false

/-- An 802.11n peer. -/
def htPeer : MacEntry where
  isHtSta := true
  fixedTxModeHt := true
  ralinkChipset := false
  maxRAmpduFactor := 3
  txSeq := fun _ => 0

/-- **The exception happens**: the peer `1` asks for a session with `TID` nine. It gets slot `1`, and
the index goes to the originator's cell for `TID` one, where no session is. -/
theorem not_accounting_beyond :
    ¬ ∀ (freelist : Nat) (ops : List TableOp),
      Accounting (Run.final tableStep (sessionTablesInit freelist) ops) := by
  intro hall
  have h := (hall 256 [.peerAddBaReq cfg htPeer 1 ⟨33, true, ⟨9, 64, 0⟩⟩]).originator
  have hidx : (Run.final tableStep (sessionTablesInit 256)
      [.peerAddBaReq cfg htPeer 1 ⟨33, true, ⟨9, 64, 0⟩⟩]).baOriWcidArray 1 1 = 1 := by
    decide +kernel
  have hne := (h.entry_of_index (by rw [hidx]; decide)).2.1
  rw [hidx] at hne
  exact hne (by decide +kernel)

end Example

end Mt7601.Ba
