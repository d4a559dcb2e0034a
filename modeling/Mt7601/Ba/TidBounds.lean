/-
# The per-TID arrays and the `TID` of an action frame

The arrays of a MAC entry that are indexed by a traffic identifier have `NUM_OF_TID` cells; the
`TID` of an ADDBA request, an ADDBA response and a DELBA has four bits, and no handler compares it
with `NUM_OF_TID`: `BAOriSessionSetUp`, which is not called for a frame, does. Here every operation
on the session table is given the list of the places it uses, in their order, with the branches of
the function it is.

An entry keeps the `TID` it was made for, and later operations use that one as an index. So the
identifiers that are kept are part of what is invariant along a run (`TidsFit`).
-/
import Mt7601.Ba.Accounting

namespace Mt7601.Ba

/-! ## 1. The places -/

/-- The fields of a MAC entry that are indexed, or shifted, by a traffic identifier. -/
inductive TidField
  | baRecWcidArray
  | baOriWcidArray
  | txSeq
  /-- `RXBAbitmap`, `TXBAbitmap` or `BADeclineBitmap` -/
  | bitmap
  deriving DecidableEq, Repr

/-- Its number of cells; a bitmap is a `USHORT`. -/
def TidField.size : TidField → Nat
  | .baRecWcidArray => numOfTid
  | .baOriWcidArray => numOfTid
  | .txSeq => numOfTid
  | .bitmap => 16

/-- A use of a field at an index. -/
structure TidAccess where
  field : TidField
  index : Nat
  deriving DecidableEq, Repr

def TidAccess.InBounds (a : TidAccess) : Prop := a.index < a.field.size

/-! ## 2. What each function uses -/

/-- `BATableFreeOriEntry` -/
def freeOriAccesses (tb : SessionTables) (idx : Nat) : List TidAccess :=
  if idx = 0 ∨ maxLenOfBaOriTable ≤ idx then []
  else
    let entry := tb.baOriEntry idx
    if entry.oriBaStatus = .originatorNone then []
    else
      ⟨.baOriWcidArray, entry.tid⟩ ::
        if entry.oriBaStatus = .originatorDone then [⟨.bitmap, entry.tid⟩] else []

/-- `BATableFreeRecEntry` -/
def freeRecAccesses (ad : Adapter) (idx : Nat) : List TidAccess :=
  if idx = 0 ∨ maxLenOfBaRecTable ≤ idx then []
  else
    let entry := ad.baRecEntry idx
    if entry.recBaStatus = .recipientNone then [] else [⟨.baRecWcidArray, entry.tid⟩]

/-- `BAOriSessionSetUp`; the entry it takes is freed nowhere in it. -/
def oriSetUpAccesses (cfg : CommonCfg) (pEntry : MacEntry) (tid : UInt8) (isForced : Bool) :
    List TidAccess :=
  if numOfTid ≤ tid.toNat then []
  else if !cfg.autoBA && !isForced then []
  else if !pEntry.fixedTxModeHt then []
  else
    [⟨.bitmap, tid.toNat⟩, ⟨.baOriWcidArray, tid.toNat⟩, ⟨.baOriWcidArray, tid.toNat⟩,
      ⟨.txSeq, tid.toNat⟩, ⟨.bitmap, tid.toNat⟩]

/-- `BAOriSessionAdd` -/
def oriAddAccesses (tb : SessionTables) (wcid : Nat) (frame : FrameAddbaRsp) : List TidAccess :=
  let tid := frame.tid
  let idx := tb.baOriWcidArray wcid tid
  let entry := tb.baOriEntry idx
  ⟨.baOriWcidArray, tid⟩ ::
    if idx ≠ 0 ∧ entry.tid = tid ∧ entry.oriBaStatus = .originatorWaitRes then
      [⟨.txSeq, tid⟩, ⟨.bitmap, tid⟩]
    else []

/-- `BAOriSessionTearDown` -/
def oriTearDownAccesses (tb : SessionTables) (wcid : Nat) (tid : Fin 16)
    (bPassive elemAlloc : Bool) : List TidAccess :=
  if maxLenOfMacTable ≤ wcid then []
  else
    let idx := tb.baOriWcidArray wcid tid
    ⟨.baOriWcidArray, tid⟩ ::
      if idx = 0 ∨ maxLenOfBaOriTable ≤ idx then []
      else
        let entry := tb.baOriEntry idx
        if (!bPassive ∧ tid = entry.tid ∧ entry.oriBaStatus = .originatorDone) ∧ !elemAlloc then []
        else freeOriAccesses tb idx

/-- `BAOriSessionSetupTimeout` -/
def oriSetupTimeoutAccesses (tb : SessionTables) (idx : Nat) (off : Bool) : List TidAccess :=
  if off then []
  else
    let entry := tb.baOriEntry idx
    if entry.oriBaStatus = .originatorWaitRes ∧ entry.token.toNat < oriSessionMaxRetry then []
    else
      ⟨.baOriWcidArray, entry.tid⟩ ::
        freeOriAccesses tb (tb.baOriWcidArray entry.wcid entry.tid)

/-- `BARecSessionAdd` -/
def recAddAccesses (tb : SessionTables) (wcid : Nat) (rxBaWinLimit : UInt8)
    (frame : FrameAddbaReq) : List TidAccess :=
  ⟨.baRecWcidArray, frame.tid⟩ ::
    if (baRecSessionAdd tb.ad wcid rxBaWinLimit frame).2 then
      [⟨.bitmap, frame.tid⟩, ⟨.bitmap, frame.tid⟩, ⟨.baRecWcidArray, frame.tid⟩,
        ⟨.bitmap, frame.tid⟩]
    else []

/-- `BARecSessionTearDown` -/
def recTearDownAccesses (ad : Adapter) (wcid : Nat) (tid : Fin 16) (bPassive elemAlloc : Bool) :
    List TidAccess :=
  if maxLenOfMacTable ≤ wcid then []
  else
    let idx := ad.baRecWcidArray wcid tid
    ⟨.baRecWcidArray, tid⟩ ::
      if idx = 0 then []
      else
        let entry := ad.baRecEntry idx
        if tid = entry.tid ∧ entry.recBaStatus = .recipientAccept then
          if !bPassive && !elemAlloc then []
          else [⟨.bitmap, entry.tid⟩, ⟨.baRecWcidArray, tid⟩] ++ freeRecAccesses ad idx
        else freeRecAccesses ad idx

/-- A step of `BASessionTearDownALL`, with what was used before. -/
def tearDownTid (wcid : Nat) (oriAlloc recAlloc : Nat → Bool)
    (s : SessionTables × List TidAccess) (i : Nat) : SessionTables × List TidAccess :=
  let tid := Fin.ofNat 16 i
  let tb := baOriSessionTearDown s.1 wcid tid false (oriAlloc i)
  (recSessionTearDown tb wcid tid false (recAlloc i),
    s.2 ++ oriTearDownAccesses s.1 wcid tid false (oriAlloc i) ++
      recTearDownAccesses tb.ad wcid tid false (recAlloc i))

/-- `PeerAddBAReqAction` -/
def peerAddBaReqAccesses (tb : SessionTables) (cfg : CommonCfg) (pMacEntry : MacEntry)
    (wcid : Nat) (msg : AddbaReqMsg) : List TidAccess :=
  if maxLenOfMacTable ≤ wcid then []
  else if peerAddBaReqActionSanity msg then
    if !cfg.bBADecline && pMacEntry.isHtSta then
      recAddAccesses tb wcid cfg.rxBaWinLimit msg.frame
    else []
  else []

/-- `PeerAddBARspAction` -/
def peerAddBaRspAccesses (tb : SessionTables) (cfg : CommonCfg) (wcid : Nat) (msg : AddbaRspMsg) :
    List TidAccess :=
  if maxLenOfMacTable ≤ wcid then []
  else if peerAddBaRspActionSanity msg then
    let frame := msg.frame
    (if frame.statusCode = 0 then oriAddAccesses tb wcid frame
      else oriTearDownAccesses tb wcid frame.tid true false) ++
      if frame.statusCode = 37 ∨ (cfg.tgnWifiOn ∧ frame.statusCode ≠ 0) then
        [⟨.bitmap, frame.tid⟩]
      else []
  else []

/-- `PeerDelBAAction` -/
def peerDelBaAccesses (tb : SessionTables) (wcid : Nat) (msg : DelbaMsg) : List TidAccess :=
  if peerDelBaActionSanity wcid msg then
    if msg.initiator then recTearDownAccesses tb.ad wcid msg.tid true false
    else oriTearDownAccesses tb wcid msg.tid true false
  else []

/-- What an operation uses in the state it starts in. -/
def tidAccesses (tb : SessionTables) : TableOp → List TidAccess
  | .oriSessionSetUp cfg pEntry _ tid _ _ isForced => oriSetUpAccesses cfg pEntry tid isForced
  | .oriSessionAdd _ wcid frame => oriAddAccesses tb wcid frame
  | .oriSessionTearDown wcid tid bPassive elemAlloc =>
    oriTearDownAccesses tb wcid tid bPassive elemAlloc
  | .oriSessionSetupTimeout idx off _ => oriSetupTimeoutAccesses tb idx off
  | .recSessionAdd wcid rxBaWinLimit frame => recAddAccesses tb wcid rxBaWinLimit frame
  | .recSessionTearDown wcid tid bPassive elemAlloc =>
    recTearDownAccesses tb.ad wcid tid bPassive elemAlloc
  | .recSessionIdleTimeout _ _ => []
  | .sessionTearDownAll wcid oriAlloc recAlloc =>
    ((List.range numOfTid).foldl (tearDownTid wcid oriAlloc recAlloc) (tb, [])).2
  | .peerAddBaReq cfg pMacEntry wcid msg => peerAddBaReqAccesses tb cfg pMacEntry wcid msg
  | .peerAddBaRsp cfg _ wcid msg => peerAddBaRspAccesses tb cfg wcid msg
  | .peerDelBa wcid msg => peerDelBaAccesses tb wcid msg

/-! ## 3. The condition and the invariant -/

/-- **The identifier fits where it is used**: a frame that gets as far as an array names one of the
eight identifiers. -/
def TableOp.TidFits : TableOp → Prop
  | .oriSessionSetUp .. => True
  | .oriSessionAdd _ _ frame => frame.tid.val < numOfTid
  | .oriSessionTearDown wcid tid _ _ => wcid < maxLenOfMacTable → tid.val < numOfTid
  | .oriSessionSetupTimeout .. => True
  | .recSessionAdd _ _ frame => frame.tid.val < numOfTid
  | .recSessionTearDown wcid tid _ _ => wcid < maxLenOfMacTable → tid.val < numOfTid
  | .recSessionIdleTimeout .. => True
  | .sessionTearDownAll .. => True
  | .peerAddBaReq cfg pMacEntry wcid msg =>
    wcid < maxLenOfMacTable → peerAddBaReqActionSanity msg →
      (!cfg.bBADecline && pMacEntry.isHtSta) → msg.frame.tid.val < numOfTid
  | .peerAddBaRsp _ _ wcid msg =>
    wcid < maxLenOfMacTable → peerAddBaRspActionSanity msg → msg.frame.tid.val < numOfTid
  | .peerDelBa wcid msg => peerDelBaActionSanity wcid msg → msg.tid.val < numOfTid

/-- The identifiers the recipient entries keep. -/
def RecTidsFit (ad : Adapter) : Prop := ∀ i, (ad.baRecEntry i).tid.val < numOfTid

/-- **The identifiers that are kept fit.** -/
structure TidsFit (tb : SessionTables) : Prop where
  ori : ∀ i, (tb.baOriEntry i).tid.val < numOfTid
  recipient : RecTidsFit tb.ad

theorem tidsFit_init (freelist : Nat) : TidsFit (sessionTablesInit freelist) :=
  ⟨fun _ => Nat.zero_lt_succ 7, fun _ => Nat.zero_lt_succ 7⟩

/-! ## 4. The recipient entries -/

section

variable {ad : Adapter} {idx wcid : Nat} {tid : Fin 16}

/-- An entry is written over. -/
theorem RecTidsFit.modifyEntry {ad' : Adapter} (h : RecTidsFit ad) (f : BaRecEntry → BaRecEntry)
    (hsame : ad'.baRecEntry = ad.baRecEntry) (hf : (f (ad.baRecEntry idx)).tid.val < numOfTid) :
    RecTidsFit (ad'.modifyEntry idx f) := by
  intro i
  rw [Adapter.modifyEntry, hsame]
  by_cases hi : i = idx
  · subst hi
    simpa using hf
  · simpa [hi] using h i

theorem RecTidsFit.refresh (h : RecTidsFit ad) :
    RecTidsFit (ad.store idx (baRefreshReorderingMpdus (ad.rx idx))) := by
  intro i
  rw [Adapter.store]
  by_cases hi : i = idx
  · subst hi
    simpa [(refresh_entry _).2.1, Adapter.rx] using h i
  · simpa [hi] using h i

theorem RecTidsFit.alloc (h : RecTidsFit ad) : RecTidsFit (baTableAllocRecEntry ad idx).1 := by
  unfold baTableAllocRecEntry
  split
  · exact h
  · split
    · dsimp only
      exact h.modifyEntry _ (by rfl) (by exact h _)
    · exact h

theorem RecTidsFit.free (h : RecTidsFit ad) : RecTidsFit (baTableFreeRecEntry ad idx) := by
  unfold baTableFreeRecEntry
  split
  · exact h
  · dsimp only
    split
    · exact h
    · exact h.modifyEntry _ rfl (h _)

theorem RecTidsFit.add {limit : UInt8} {frame : FrameAddbaReq} (h : RecTidsFit ad)
    (htid : frame.tid.val < numOfTid) : RecTidsFit (baRecSessionAdd ad wcid limit frame).1 := by
  rw [baRecSessionAdd]
  dsimp only
  have hadd : ∀ (ad' : Adapter) i (f : BaRecEntry → BaRecEntry), RecTidsFit ad' →
      (f (ad'.baRecEntry i)).tid.val < numOfTid → ∀ idx,
      RecTidsFit ((ad'.modifyEntry i f).setWcidArray wcid frame.tid idx) :=
    fun _ _ f h' hf _ i => h'.modifyEntry f rfl hf i
  by_cases hidx : ad.baRecWcidArray wcid frame.tid = 0
  · rw [if_pos hidx]
    have halloc : RecTidsFit (baTableAllocRecEntry ad (ad.baRecWcidArray wcid frame.tid)).1 :=
      h.alloc
    rcases hcell : baTableAllocRecEntry ad (ad.baRecWcidArray wcid frame.tid) with
      ⟨ad', _ | i, idx'⟩ <;> rw [hcell] at halloc
    · exact halloc
    · exact hadd ad' i _ halloc htid _
  · rw [if_neg hidx]
    exact hadd _ (ad.baRecWcidArray wcid frame.tid) _ h.refresh htid _

theorem RecTidsFit.tearDown {bPassive elemAlloc : Bool} (h : RecTidsFit ad) :
    RecTidsFit (baRecSessionTearDown ad wcid tid bPassive elemAlloc) := by
  rw [baRecSessionTearDown]
  split
  · exact h
  · dsimp only
    split
    · exact h
    · split
      · split
        · exact h
        · refine RecTidsFit.free fun i => ?_
          exact h.refresh.modifyEntry (fun e => { e with lastIndSeq := resetRcvSeq, baWinSize := 0 })
            rfl (h.refresh _) i
      · exact h.free

theorem RecTidsFit.idleTimeout {now32 : Ulong} (h : RecTidsFit ad) :
    RecTidsFit (baRecSessionIdleTimeout ad idx now32) := by
  rw [baRecSessionIdleTimeout]
  split
  · exact h.refresh
  · exact h

end

/-! ## 5. The whole table -/

section

variable {tb : SessionTables} {idx wcid : Nat} {tid : Fin 16}

theorem TidsFit.modifyOriEntry {tb' : SessionTables} (h : TidsFit tb) (f : BaOriEntry → BaOriEntry)
    (hsame : tb'.baOriEntry = tb.baOriEntry) (had : tb'.ad = tb.ad)
    (hf : (f (tb.baOriEntry idx)).tid.val < numOfTid) : TidsFit (tb'.modifyOriEntry idx f) := by
  refine ⟨fun i => ?_, fun i => by rw [SessionTables.modifyOriEntry, had]; exact h.recipient i⟩
  rw [SessionTables.modifyOriEntry, hsame]
  by_cases hi : i = idx
  · subst hi
    simpa using hf
  · simpa [hi] using h.ori i

theorem TidsFit.setOriWcidArray {n : Nat} (h : TidsFit tb) :
    TidsFit (tb.setOriWcidArray wcid tid n) := by
  rw [SessionTables.setOriWcidArray]
  split
  · exact ⟨h.ori, h.recipient⟩
  · exact h

theorem TidsFit.free (h : TidsFit tb) : TidsFit (baTableFreeOriEntry tb idx) := by
  rw [baTableFreeOriEntry]
  split
  · exact h
  · dsimp only
    split
    · exact h
    · have hset : TidsFit (tb.setOriWcidArray (tb.baOriEntry idx).wcid
          (tb.baOriEntry idx).tid 0) := h.setOriWcidArray
      split
      · exact hset.modifyOriEntry _ rfl rfl (hset.ori _)
      · exact hset.modifyOriEntry _ rfl rfl (hset.ori _)

theorem TidsFit.alloc (h : TidsFit tb) : TidsFit (baTableAllocOriEntry tb idx).1 := by
  unfold baTableAllocOriEntry
  split
  · exact h
  · split
    · dsimp only
      exact h.modifyOriEntry _ (by rfl) (by rfl) (by exact h.ori _)
    · exact h

theorem TidsFit.setUp {cfg : CommonCfg} {pEntry : MacEntry} {tid : UInt8}
    {timeOut delayTime : Nat} {isForced : Bool} (h : TidsFit tb) :
    TidsFit (baOriSessionSetUp tb cfg pEntry wcid tid timeOut delayTime isForced).1 := by
  rw [baOriSessionSetUp]
  by_cases htid : numOfTid ≤ tid.toNat
  · rw [if_pos htid]
    exact h
  · rw [if_neg htid]
    have hlt : (Fin.ofNat 16 tid.toNat).val < numOfTid :=
      Nat.lt_of_le_of_lt (Nat.mod_le _ _) (Nat.not_le.mp htid)
    have hset : ∀ {tb' : SessionTables}, TidsFit tb' → ∀ i n,
        TidsFit ((tb'.setOriWcidArray wcid (Fin.ofNat 16 tid.toNat) n).modifyOriEntry i fun _ =>
          initBaSession cfg pEntry wcid (Fin.ofNat 16 tid.toNat) timeOut) :=
      fun h' _ _ => h'.setOriWcidArray.modifyOriEntry _ rfl rfl hlt
    split
    · exact h
    · split
      · exact h
      · dsimp only
        by_cases hidx : tb.baOriWcidArray wcid (Fin.ofNat 16 tid.toNat) = 0
        · rw [if_pos hidx]
          have halloc : TidsFit (baTableAllocOriEntry tb
              (tb.baOriWcidArray wcid (Fin.ofNat 16 tid.toNat))).1 := h.alloc
          rcases hcell : baTableAllocOriEntry tb
            (tb.baOriWcidArray wcid (Fin.ofNat 16 tid.toNat)) with ⟨tb', _ | i, idx'⟩
          · rw [hcell] at halloc
            exact halloc
          · rw [hcell] at halloc
            dsimp only
            split
            · exact halloc
            · exact hset halloc _ _
        · rw [if_neg hidx]
          dsimp only
          split
          · exact h
          · exact hset h _ _

theorem TidsFit.add {pEntry : MacEntry} {frame : FrameAddbaRsp} (h : TidsFit tb) :
    TidsFit (baOriSessionAdd tb pEntry wcid frame) := by
  rw [baOriSessionAdd]
  dsimp only
  split
  · exact h.modifyOriEntry _ rfl rfl (h.ori _)
  · exact h

theorem TidsFit.oriTearDown {bPassive elemAlloc : Bool} (h : TidsFit tb) :
    TidsFit (baOriSessionTearDown tb wcid tid bPassive elemAlloc) := by
  rw [baOriSessionTearDown]
  split
  · exact h
  · dsimp only
    split
    · exact h
    · split
      · exact h
      · exact h.free

theorem TidsFit.setupTimeout {off scanning : Bool} (h : TidsFit tb) :
    TidsFit (baOriSessionSetupTimeout tb idx off scanning) := by
  rw [baOriSessionSetupTimeout]
  split
  · exact h
  · dsimp only
    split
    · split
      · exact h
      · exact h.modifyOriEntry _ rfl rfl (h.ori _)
    · exact h.free

theorem TidsFit.recAdd {limit : UInt8} {frame : FrameAddbaReq} (h : TidsFit tb)
    (htid : frame.tid.val < numOfTid) : TidsFit (recSessionAdd tb wcid limit frame).1 := by
  have hadd : RecTidsFit (baRecSessionAdd tb.ad wcid limit frame).1 := h.recipient.add htid
  rw [recSessionAdd]
  rcases hcell : baRecSessionAdd tb.ad wcid limit frame with ⟨ad, _ | _⟩ <;> rw [hcell] at hadd
  · exact ⟨h.ori, hadd⟩
  · exact ⟨h.ori, hadd⟩

theorem TidsFit.recTearDown {bPassive elemAlloc : Bool} (h : TidsFit tb) :
    TidsFit (recSessionTearDown tb wcid tid bPassive elemAlloc) :=
  ⟨h.ori, h.recipient.tearDown⟩

/-- **A step**: what is kept fits again if the operation's identifier does. -/
theorem TidsFit.step {op : TableOp} (h : TidsFit tb) (hop : op.TidFits) :
    TidsFit (tableStep tb op) := by
  cases op with
  | oriSessionSetUp => exact h.setUp
  | oriSessionAdd => exact h.add
  | oriSessionTearDown => exact h.oriTearDown
  | oriSessionSetupTimeout => exact h.setupTimeout
  | recSessionAdd => exact h.recAdd hop
  | recSessionTearDown => exact h.recTearDown
  | recSessionIdleTimeout => exact ⟨h.ori, h.recipient.idleTimeout⟩
  | sessionTearDownAll wcid oriAlloc recAlloc =>
    rw [tableStep, baSessionTearDownAll]
    induction List.range numOfTid generalizing tb with
    | nil => exact h
    | cons i l ih => exact ih h.oriTearDown.recTearDown
  | peerAddBaReq cfg pMacEntry wcid msg =>
    rw [tableStep, peerAddBaReqAction]
    split
    · exact h
    · rename_i hwcid
      by_cases hsane : peerAddBaReqActionSanity msg
      · rw [if_pos hsane]
        by_cases hht : !cfg.bBADecline && pMacEntry.isHtSta
        · rw [if_pos hht]
          have hadd : TidsFit (recSessionAdd tb wcid cfg.rxBaWinLimit msg.frame).1 :=
            h.recAdd (hop (Nat.not_le.mp hwcid) hsane hht)
          rcases hcell : recSessionAdd tb wcid cfg.rxBaWinLimit msg.frame with ⟨tb', _ | _⟩ <;>
            rw [hcell] at hadd
          · exact hadd
          · exact hadd
        · rw [if_neg hht]
          exact h
      · rw [if_neg hsane]
        exact h
  | peerAddBaRsp cfg pEntry wcid msg =>
    rw [tableStep, peerAddBaRspAction]
    split
    · exact h
    · split
      · dsimp only
        have hrsp : TidsFit (if msg.frame.statusCode = 0 then baOriSessionAdd tb pEntry wcid msg.frame
            else baOriSessionTearDown tb wcid msg.frame.tid true false) := by
          split
          · exact h.add
          · exact h.oriTearDown
        split
        · exact ⟨hrsp.ori, hrsp.recipient⟩
        · exact hrsp
      · exact h
  | peerDelBa wcid msg =>
    rw [tableStep, peerDelBaAction]
    split
    · split
      · exact h.recTearDown
      · exact h.oriTearDown
    · exact h

end

/-! ## 6. Where everything is in bounds -/

def AllInBounds (l : List TidAccess) : Prop := ∀ a ∈ l, a.InBounds

section

variable {tb : SessionTables} {ad : Adapter} {idx wcid : Nat} {tid : Fin 16}

theorem allInBounds_nil : AllInBounds [] := fun _ ha => absurd ha List.not_mem_nil

@[simp] theorem allInBounds_cons {a : TidAccess} {l : List TidAccess} :
    AllInBounds (a :: l) ↔ a.InBounds ∧ AllInBounds l := List.forall_mem_cons

theorem allInBounds_append {l m : List TidAccess} :
    AllInBounds (l ++ m) ↔ AllInBounds l ∧ AllInBounds m := List.forall_mem_append

/-- A bitmap has a bit for each of the sixteen identifiers. -/
theorem inBounds_bitmap : TidAccess.InBounds ⟨.bitmap, tid⟩ := tid.isLt

/-- A list that begins with an array, indexed by an identifier, and is in bounds behind it. -/
theorem allInBounds_array {field : TidField} {l : List TidAccess} (hfield : field.size = numOfTid)
    (hl : tid.val < numOfTid → AllInBounds l) :
    AllInBounds (⟨field, tid⟩ :: l) ↔ tid.val < numOfTid := by
  rw [allInBounds_cons, TidAccess.InBounds, hfield]
  exact ⟨fun h => h.1, fun h => ⟨h, hl h⟩⟩

theorem TidsFit.freeOriAccesses (h : TidsFit tb) : AllInBounds (freeOriAccesses tb idx) := by
  rw [Ba.freeOriAccesses]
  split
  · exact allInBounds_nil
  · dsimp only
    split
    · exact allInBounds_nil
    · refine (allInBounds_array rfl fun _ => ?_).mpr (h.ori idx)
      split
      · exact allInBounds_cons.mpr ⟨inBounds_bitmap, allInBounds_nil⟩
      · exact allInBounds_nil

theorem RecTidsFit.freeRecAccesses (h : RecTidsFit ad) : AllInBounds (freeRecAccesses ad idx) := by
  rw [Ba.freeRecAccesses]
  split
  · exact allInBounds_nil
  · dsimp only
    split
    · exact allInBounds_nil
    · exact (allInBounds_array rfl fun _ => allInBounds_nil).mpr (h idx)

/-- The one function that compares. -/
theorem allInBounds_oriSetUp {cfg : CommonCfg} {pEntry : MacEntry} {tid : UInt8}
    {isForced : Bool} : AllInBounds (oriSetUpAccesses cfg pEntry tid isForced) := by
  rw [oriSetUpAccesses]
  by_cases htid : numOfTid ≤ tid.toNat
  · rw [if_pos htid]
    exact allInBounds_nil
  · have h8 : tid.toNat < numOfTid := Nat.not_le.mp htid
    have h16 : tid.toNat < 16 := Nat.lt_trans h8 (by decide)
    rw [if_neg htid]
    split
    · exact allInBounds_nil
    · split
      · exact allInBounds_nil
      · simp only [allInBounds_cons]
        exact ⟨h16, h8, h8, h8, h16, allInBounds_nil⟩

theorem allInBounds_oriAdd {frame : FrameAddbaRsp} :
    AllInBounds (oriAddAccesses tb wcid frame) ↔ frame.tid.val < numOfTid := by
  refine allInBounds_array rfl fun htid => ?_
  split
  · exact allInBounds_cons.mpr ⟨htid, allInBounds_cons.mpr ⟨inBounds_bitmap, allInBounds_nil⟩⟩
  · exact allInBounds_nil

theorem TidsFit.oriTearDownAccesses {bPassive elemAlloc : Bool} (h : TidsFit tb) :
    AllInBounds (oriTearDownAccesses tb wcid tid bPassive elemAlloc) ↔
      (wcid < maxLenOfMacTable → tid.val < numOfTid) := by
  rw [Ba.oriTearDownAccesses]
  by_cases hwcid : maxLenOfMacTable ≤ wcid
  · rw [if_pos hwcid]
    exact iff_of_true allInBounds_nil fun hlt => absurd hwcid (Nat.not_le.mpr hlt)
  · rw [if_neg hwcid]
    refine (allInBounds_array rfl fun _ => ?_).trans
      ⟨fun htid _ => htid, fun htid => htid (Nat.not_le.mp hwcid)⟩
    split
    · exact allInBounds_nil
    · dsimp only
      split
      · exact allInBounds_nil
      · exact h.freeOriAccesses

theorem TidsFit.oriSetupTimeoutAccesses {off : Bool} (h : TidsFit tb) :
    AllInBounds (oriSetupTimeoutAccesses tb idx off) := by
  rw [Ba.oriSetupTimeoutAccesses]
  split
  · exact allInBounds_nil
  · dsimp only
    split
    · exact allInBounds_nil
    · exact (allInBounds_array rfl fun _ => h.freeOriAccesses).mpr (h.ori idx)

theorem allInBounds_recAdd {limit : UInt8} {frame : FrameAddbaReq} :
    AllInBounds (recAddAccesses tb wcid limit frame) ↔ frame.tid.val < numOfTid := by
  refine allInBounds_array rfl fun htid => ?_
  split
  · simp only [allInBounds_cons]
    exact ⟨inBounds_bitmap, inBounds_bitmap, htid, inBounds_bitmap, allInBounds_nil⟩
  · exact allInBounds_nil

theorem RecTidsFit.recTearDownAccesses {bPassive elemAlloc : Bool} (h : RecTidsFit ad) :
    AllInBounds (recTearDownAccesses ad wcid tid bPassive elemAlloc) ↔
      (wcid < maxLenOfMacTable → tid.val < numOfTid) := by
  rw [Ba.recTearDownAccesses]
  by_cases hwcid : maxLenOfMacTable ≤ wcid
  · rw [if_pos hwcid]
    exact iff_of_true allInBounds_nil fun hlt => absurd hwcid (Nat.not_le.mpr hlt)
  · rw [if_neg hwcid]
    refine (allInBounds_array rfl fun htid => ?_).trans
      ⟨fun htid _ => htid, fun htid => htid (Nat.not_le.mp hwcid)⟩
    split
    · exact allInBounds_nil
    · dsimp only
      split
      · split
        · exact allInBounds_nil
        · refine allInBounds_append.mpr ⟨?_, h.freeRecAccesses⟩
          simp only [allInBounds_cons]
          exact ⟨inBounds_bitmap, htid, allInBounds_nil⟩
      · exact h.freeRecAccesses

/-- The eight identifiers `BASessionTearDownALL` goes through. -/
theorem TidsFit.tearDownAllAccesses (h : TidsFit tb) (oriAlloc recAlloc : Nat → Bool) :
    AllInBounds ((List.range numOfTid).foldl (tearDownTid wcid oriAlloc recAlloc) (tb, [])).2 := by
  have hfold : ∀ (l : List Nat), (∀ i ∈ l, i < numOfTid) → ∀ s : SessionTables × List TidAccess,
      TidsFit s.1 → AllInBounds s.2 →
        AllInBounds (l.foldl (tearDownTid wcid oriAlloc recAlloc) s).2 := by
    intro l
    induction l with
    | nil => exact fun _ _ _ hs => hs
    | cons i l ih =>
      intro hl s hfit hs
      obtain ⟨hi, hl⟩ := List.forall_mem_cons.mp hl
      have htid : (Fin.ofNat 16 i).val < numOfTid := Nat.lt_of_le_of_lt (Nat.mod_le _ _) hi
      refine ih hl _ hfit.oriTearDown.recTearDown ?_
      refine allInBounds_append.mpr ⟨allInBounds_append.mpr ⟨hs, ?_⟩, ?_⟩
      · exact hfit.oriTearDownAccesses.mpr fun _ => htid
      · exact hfit.oriTearDown.recipient.recTearDownAccesses.mpr fun _ => htid
  exact hfold _ (fun i hi => List.mem_range.mp hi) _ h allInBounds_nil

/-- **An operation is in bounds exactly when its identifier fits.** -/
theorem TidsFit.accesses_iff {op : TableOp} (h : TidsFit tb) :
    AllInBounds (tidAccesses tb op) ↔ op.TidFits := by
  cases op with
  | oriSessionSetUp => exact iff_of_true allInBounds_oriSetUp trivial
  | oriSessionAdd => exact allInBounds_oriAdd
  | oriSessionTearDown => exact h.oriTearDownAccesses
  | oriSessionSetupTimeout => exact iff_of_true h.oriSetupTimeoutAccesses trivial
  | recSessionAdd => exact allInBounds_recAdd
  | recSessionTearDown => exact h.recipient.recTearDownAccesses
  | recSessionIdleTimeout => exact iff_of_true allInBounds_nil trivial
  | sessionTearDownAll => exact iff_of_true (h.tearDownAllAccesses _ _) trivial
  | peerAddBaReq cfg pMacEntry wcid msg =>
    rw [tidAccesses, peerAddBaReqAccesses, TableOp.TidFits]
    by_cases hwcid : maxLenOfMacTable ≤ wcid
    · rw [if_pos hwcid]
      exact iff_of_true allInBounds_nil fun hlt => absurd hwcid (Nat.not_le.mpr hlt)
    · rw [if_neg hwcid, imp_iff_right (Nat.not_le.mp hwcid)]
      by_cases hsane : peerAddBaReqActionSanity msg
      · rw [if_pos hsane, imp_iff_right hsane]
        by_cases hht : !cfg.bBADecline && pMacEntry.isHtSta
        · rw [if_pos hht, imp_iff_right hht]
          exact allInBounds_recAdd
        · rw [if_neg hht]
          exact iff_of_true allInBounds_nil fun ht => absurd ht hht
      · rw [if_neg hsane]
        exact iff_of_true allInBounds_nil fun hs => absurd hs hsane
  | peerAddBaRsp cfg pEntry wcid msg =>
    rw [tidAccesses, peerAddBaRspAccesses, TableOp.TidFits]
    by_cases hwcid : maxLenOfMacTable ≤ wcid
    · rw [if_pos hwcid]
      exact iff_of_true allInBounds_nil fun hlt => absurd hwcid (Nat.not_le.mpr hlt)
    · rw [if_neg hwcid, imp_iff_right (Nat.not_le.mp hwcid)]
      by_cases hsane : peerAddBaRspActionSanity msg
      · rw [if_pos hsane, imp_iff_right hsane, allInBounds_append]
        have hdecline : AllInBounds (if msg.frame.statusCode = 37 ∨
            (cfg.tgnWifiOn ∧ msg.frame.statusCode ≠ 0) then [⟨.bitmap, msg.frame.tid⟩] else []) := by
          split
          · exact allInBounds_cons.mpr ⟨inBounds_bitmap, allInBounds_nil⟩
          · exact allInBounds_nil
        refine (and_iff_left hdecline).trans ?_
        split
        · exact allInBounds_oriAdd
        · exact h.oriTearDownAccesses.trans (imp_iff_right (Nat.not_le.mp hwcid))
      · rw [if_neg hsane]
        exact iff_of_true allInBounds_nil fun hs => absurd hs hsane
  | peerDelBa wcid msg =>
    rw [tidAccesses, peerDelBaAccesses, TableOp.TidFits]
    by_cases hsane : peerDelBaActionSanity wcid msg
    · have hwcid : wcid < maxLenOfMacTable := by
        rw [peerDelBaActionSanity] at hsane
        split at hsane
        · exact absurd hsane (by decide)
        · exact of_decide_eq_true hsane
      rw [if_pos hsane, imp_iff_right hsane]
      split
      · exact h.recipient.recTearDownAccesses.trans (imp_iff_right hwcid)
      · exact h.oriTearDownAccesses.trans (imp_iff_right hwcid)
    · rw [if_neg hsane]
      exact iff_of_true allInBounds_nil fun hs => absurd hs hsane

end

/-! ## 7. Along a run -/

/-- **The per-TID arrays are indexed below their size, in every state of a run, exactly when the
identifier of every operation fits**: of every action frame that passes its check and gets to a
session, the `TID` is one of the eight. -/
theorem tidAccesses_inBounds_iff (freelist : Nat) (ops : List TableOp) :
    (∀ done op rest, ops = done ++ op :: rest →
      ∀ a ∈ tidAccesses (Run.final tableStep (sessionTablesInit freelist) done) op,
        a.index < a.field.size) ↔
      ∀ op ∈ ops, op.TidFits := by
  have hmeet : Run.StepsMeet tableStep (fun tb op => AllInBounds (tidAccesses tb op))
      (sessionTablesInit freelist) ops ↔ ∀ op ∈ ops, op.TidFits :=
    (Run.stepsMeet_iff TidsFit (fun _ _ h => h.accesses_iff)
      (fun _ _ h hop => h.step (h.accesses_iff.mp hop)) (tidsFit_init freelist)).trans
      Run.stepsMeet_forall
  rw [← hmeet]
  clear hmeet
  generalize sessionTablesInit freelist = tb
  induction ops generalizing tb with
  | nil =>
    refine iff_of_true ?_ trivial
    intro done op rest hsplit
    exact absurd hsplit.symm (by simp)
  | cons op ops ih =>
    rw [Run.stepsMeet_cons]
    refine Iff.trans ?_ (and_congr_right fun _ => ih (tableStep tb op))
    constructor
    · intro h
      refine ⟨h [] op ops rfl, fun done op' rest hsplit => ?_⟩
      exact h (op :: done) op' rest (congrArg (op :: ·) hsplit)
    · rintro ⟨hop, hops⟩ done op' rest hsplit
      rcases done with _ | ⟨op₀, done⟩
      · obtain ⟨rfl, -⟩ := List.cons.inj hsplit
        exact hop
      · obtain ⟨rfl, hrest⟩ := List.cons.inj hsplit
        exact hops done op' rest hrest

/-- A DELBA for the identifier eight, of a peer that has just been admitted: it is as long as a
DELBA is, and `BARecWcidArray[8]` is read. -/
theorem tidAccesses_delba_beyond :
    peerDelBaActionSanity 1 ⟨sizeofFrameDelbaReq, true, 8⟩ = true ∧
      ¬ ∀ a ∈ tidAccesses (sessionTablesInit 0)
          (.peerDelBa 1 ⟨sizeofFrameDelbaReq, true, 8⟩),
        a.index < a.field.size := by
  refine ⟨by decide, fun h => ?_⟩
  exact absurd (h ⟨.baRecWcidArray, 8⟩ (by decide)) (by decide)

end Mt7601.Ba
