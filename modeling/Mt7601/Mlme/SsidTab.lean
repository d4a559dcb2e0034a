/-
# The buffers of the scan table, and the SSID table

Each entry of the scan table has a buffer of its own for the elements of probe responses. The SSID
table has none: its entries are copies, and refer to the buffers of the scan table.
`BssTableInit` zeroes the buffers its table refers to, so the second `BssTableSsidSort` destroys what
the first one pointed to. `sound_iff` says exactly which runs are free of that, and of the other way
the buffers get mixed up: `BssTableDeleteEntry` copies the reference where an entry has no buffer.
-/
import Mt7601.Lib.Run
import Mt7601.Mlme.BssTable

namespace Mt7601.Mlme

/-! ## 1. The two tables -/

/-- `ScanTab`, `MlmeAux.SsidBssTab` and the buffers. -/
structure Tables where
  scanTab : BssTable
  ssidTab : BssTable
  heap : Heap

/-- The operations on the two. -/
inductive TableOp where
  | scanInit
  | scanSet (d : Desired) (behind : List UInt8) (b : Beacon)
  | scanDelete (bssid : List UInt8) (channel : UInt8)
  /-- the elements of a probe response go into the buffer of entry `i` -/
  | probeRsp (i : Nat) (pVIE : List UInt8) (lenVIE : Nat)
  | ssidInit
  | ssidSort (cfg : StaConfig) (allocated : Bool) (ssid : List UInt8) (ssidLen : UInt8)
  | ssidSortByRssi (allocated : Bool)

/-- What `PeerBeaconAtScanAction` does with the elements of a probe response. -/
def storeProbeRsp (tab : BssTable) (heap : Heap) (i : Nat) (pVIE : List UInt8) (lenVIE : Nat) :
    BssTable × Heap :=
  match (tab.entry i).pVarIeFromProbRsp with
  | some p =>
    (tab.setEntry i { tab.entry i with varIeFromProbeRspLen := lenVIE },
      Function.update heap p (Mem.write zeroVie 0 (Mem.read pVIE 0 lenVIE)))
  | none => (tab.setEntry i { tab.entry i with varIeFromProbeRspLen := 0 }, heap)

variable (getCentCh : List UInt8 → List UInt8 → UInt8)

/-- An operation. -/
def Tables.step (s : Tables) : TableOp → Tables
  | .scanInit =>
    let (scanTab, heap) := bssTableInit s.scanTab s.heap
    { s with scanTab := scanTab, heap := heap }
  | .scanSet d behind b => { s with scanTab := (bssTableSetEntry getCentCh d behind s.scanTab b).1 }
  | .scanDelete bssid channel =>
    let (scanTab, heap) := bssTableDeleteEntry s.scanTab s.heap bssid channel
    { s with scanTab := scanTab, heap := heap }
  | .probeRsp i pVIE lenVIE =>
    let (scanTab, heap) := storeProbeRsp s.scanTab s.heap i pVIE lenVIE
    { s with scanTab := scanTab, heap := heap }
  | .ssidInit =>
    let (ssidTab, heap) := bssTableInit s.ssidTab s.heap
    { s with ssidTab := ssidTab, heap := heap }
  | .ssidSort cfg allocated ssid ssidLen =>
    let (ssidTab, heap) :=
      bssTableSsidSort cfg allocated ssid ssidLen s.scanTab s.ssidTab s.heap
    { s with ssidTab := ssidTab, heap := heap }
  | .ssidSortByRssi allocated => { s with ssidTab := bssTableSortByRssi allocated s.ssidTab }

/-- The buffers that could be allocated when the adapter was set up, each by itself. -/
structure Buffers where
  buf : Nat → Option Nat
  distinct : ∀ i j p, buf i = some p → buf j = some p → i = j

/-- The tables when the driver comes up. -/
def Tables.start (b : Buffers) : Tables where
  scanTab :=
    { bssNr := 0, bssOverlapNr := 0, entry := fun i => { pVarIeFromProbRsp := b.buf i } }
  ssidTab := { bssNr := 0, bssOverlapNr := 0, entry := fun _ => {} }
  heap := fun _ => zeroVie

/-! ## 2. What is to hold -/

/-- The buffer of an entry. -/
def BssTable.buf (tab : BssTable) (i : Nat) : Option Nat := (tab.entry i).pVarIeFromProbRsp

/-- No two entries refer to the same buffer. -/
def NoSharing (tab : BssTable) : Prop :=
  ∀ i < maxLenOfBssTable, ∀ j < maxLenOfBssTable, ∀ p,
    tab.buf i = some p → tab.buf j = some p → i = j

/-- An operation on the SSID table. -/
def TableOp.onSsidTab : TableOp → Bool
  | .ssidInit => true
  | .ssidSort _ _ _ _ => true
  | .ssidSortByRssi _ => true
  | _ => false

/-- No sharing behind the operation, and one on the SSID table changes neither an entry of the scan
table nor the buffer it refers to. -/
def OpSound (s : Tables) (op : TableOp) : Prop :=
  NoSharing (s.step getCentCh op).scanTab ∧
    (op.onSsidTab = true → (s.step getCentCh op).scanTab = s.scanTab ∧
      ∀ i < maxLenOfBssTable, ∀ p, s.scanTab.buf i = some p →
        (s.step getCentCh op).heap p = s.heap p)

/-- **The condition.** Deleting finds no entry without a buffer in front of one with a buffer, in
what it shifts; and when the SSID table is initialised, the buffers of the scan table that it refers
to hold only zeros. -/
def OpOk (s : Tables) : TableOp → Prop
  | .scanDelete bssid channel => ∀ i, bssDeleteIndex s.scanTab bssid channel = some i →
      ∀ j, i ≤ j → j + 1 < s.scanTab.bssNr → s.scanTab.buf j = none → s.scanTab.buf (j + 1) = none
  | .ssidInit | .ssidSort _ _ _ _ => ∀ k < maxLenOfBssTable, ∀ i < maxLenOfBssTable, ∀ p,
      s.ssidTab.buf k = some p → s.scanTab.buf i = some p → s.heap p = zeroVie
  | _ => True

/-! ## 3. What the operations do with the references -/

@[simp] theorem buf_setEntry_self (tab : BssTable) (i : Nat) (e : BssEntry) :
    (tab.setEntry i e).buf i = e.pVarIeFromProbRsp := by
  rw [BssTable.buf, BssTable.entry_setEntry_self]

theorem buf_setEntry_of_ne (tab : BssTable) {i j : Nat} (e : BssEntry) (h : j ≠ i) :
    (tab.setEntry i e).buf j = tab.buf j := by
  rw [BssTable.buf, BssTable.entry_setEntry_of_ne tab e h, BssTable.buf]

/-- An entry that keeps its reference leaves all of them as they were. -/
theorem buf_setEntry_of_eq (tab : BssTable) {i : Nat} {e : BssEntry}
    (h : e.pVarIeFromProbRsp = tab.buf i) : (tab.setEntry i e).buf = tab.buf := by
  funext j
  by_cases hj : j = i
  · rw [hj, buf_setEntry_self, h]
  · exact buf_setEntry_of_ne tab e hj

theorem noSharing_congr {tab tab' : BssTable} (h : tab'.buf = tab.buf) :
    NoSharing tab' ↔ NoSharing tab := by
  unfold NoSharing
  rw [h]

/-- **A frame leaves the reference of its entry as it is.** -/
theorem bssEntrySet_pVarIeFromProbRsp (behind : List UInt8) (pBss : BssEntry) (b : Beacon) :
    (bssEntrySet getCentCh behind pBss b).pVarIeFromProbRsp = pBss.pVarIeFromProbRsp := by
  rw [bssEntrySet_eq]
  unfold BssEntry.beforeCiphers
  dsimp only
  rw [setHt_eq, setFixed_eq, setSsid_eq]
  rfl

theorem buf_bssTableSetEntry (d : Desired) (behind : List UInt8) (tab : BssTable) (b : Beacon) :
    (bssTableSetEntry getCentCh d behind tab b).1.buf = tab.buf := by
  have hset : ∀ i,
      (tab.setEntry i (bssEntrySet getCentCh behind (tab.entry i) b)).buf = tab.buf := fun i =>
    buf_setEntry_of_eq tab (bssEntrySet_pVarIeFromProbRsp getCentCh behind _ b)
  unfold bssTableSetEntry
  dsimp only
  split
  · exact hset _
  · split_ifs
    · exact hset _
    · rfl
    · rfl
    · exact hset _

theorem bssNr_bssTableSetEntry {d : Desired} {behind : List UInt8} {tab : BssTable} {b : Beacon}
    (h : tab.bssNr ≤ maxLenOfBssTable) :
    (bssTableSetEntry getCentCh d behind tab b).1.bssNr ≤ maxLenOfBssTable := by
  unfold bssTableSetEntry
  dsimp only
  split
  · exact h
  · split_ifs with hfull
    · exact h
    · exact h
    · exact h
    · change tab.bssNr + 1 ≤ maxLenOfBssTable
      omega

/-! ### Initialising -/

theorem foldl_bssInitEntry_buf (l : List Nat) (s : BssTable × Heap) :
    (l.foldl bssInitEntry s).1.buf = s.1.buf := by
  induction l generalizing s with
  | nil => rfl
  | cons i l ih =>
    rw [List.foldl_cons, ih]
    exact buf_setEntry_of_eq s.1 rfl

theorem foldl_bssInitEntry_heap (l : List Nat) (s : BssTable × Heap) (p : Nat) :
    (l.foldl bssInitEntry s).2 p = if ∃ k ∈ l, s.1.buf k = some p then zeroVie else s.2 p := by
  induction l generalizing s with
  | nil => simp
  | cons i l ih =>
    have hbuf : (bssInitEntry s i).1.buf = s.1.buf := buf_setEntry_of_eq s.1 rfl
    have hheap : (bssInitEntry s i).2 p = if s.1.buf i = some p then zeroVie else s.2 p := by
      change zeroBuffer (s.1.buf i) s.2 p = _
      cases s.1.buf i with
      | none => rfl
      | some q =>
        simp only [zeroBuffer, Function.update_apply, Option.some.injEq]
        exact if_congr eq_comm rfl rfl
    rw [List.foldl_cons, ih, hbuf, hheap]
    by_cases hi : s.1.buf i = some p
    · simp [hi]
    · simp [hi]

theorem buf_bssTableInit (tab : BssTable) (heap : Heap) :
    (bssTableInit tab heap).1.buf = tab.buf := foldl_bssInitEntry_buf _ _

/-- **`BssTableInit` zeroes what its table refers to** and nothing else. -/
theorem heap_bssTableInit (tab : BssTable) (heap : Heap) (p : Nat) :
    (bssTableInit tab heap).2 p =
      if ∃ k < maxLenOfBssTable, tab.buf k = some p then zeroVie else heap p := by
  unfold bssTableInit
  rw [foldl_bssInitEntry_heap]
  simp only [List.mem_range]
  rfl

theorem bssNr_bssTableInit (tab : BssTable) (heap : Heap) :
    (bssTableInit tab heap).1.bssNr = 0 := by
  have hfold : ∀ (l : List Nat) (s : BssTable × Heap),
      (l.foldl bssInitEntry s).1.bssNr = s.1.bssNr := by
    intro l
    induction l with
    | nil => intro s; rfl
    | cons i l ih =>
      intro s
      rw [List.foldl_cons, ih]
      rfl
  exact hfold _ _

theorem heap_bssTableSsidSort (cfg : StaConfig) (allocated : Bool) (ssid : List UInt8)
    (ssidLen : UInt8) (scanTab outTab : BssTable) (heap : Heap) :
    (bssTableSsidSort cfg allocated ssid ssidLen scanTab outTab heap).2 =
      (bssTableInit outTab heap).2 := by
  unfold bssTableSsidSort
  dsimp only
  split_ifs <;> rfl

/-! ### Deleting -/

/-- A pass of the shift copies the reference exactly where there is none. -/
theorem bssShiftEntry_buf (s : BssTable × Heap) (j k : Nat) :
    (bssShiftEntry s j).1.buf k = if k = j then (s.1.buf j).or (s.1.buf (j + 1)) else s.1.buf k := by
  by_cases hk : k = j
  · subst hk
    rw [if_pos rfl]
    unfold bssShiftEntry
    cases hp : (s.1.entry k).pVarIeFromProbRsp with
    | some p => simp [BssTable.buf, hp]
    | none => simp [BssTable.buf, hp]
  · rw [if_neg hk]
    unfold bssShiftEntry
    cases (s.1.entry j).pVarIeFromProbRsp with
    | some p => exact buf_setEntry_of_ne _ _ hk
    | none => exact buf_setEntry_of_ne _ _ hk

theorem foldl_bssShiftEntry_buf (i n : Nat) (s : BssTable × Heap) (k : Nat) :
    ((List.range' i n).foldl bssShiftEntry s).1.buf k =
      if i ≤ k ∧ k < i + n then (s.1.buf k).or (s.1.buf (k + 1)) else s.1.buf k := by
  induction n generalizing i s with
  | zero => rw [if_neg (by omega)]; rfl
  | succ n ih =>
    rw [List.range'_succ, List.foldl_cons, ih]
    rcases Nat.lt_trichotomy k i with hlt | rfl | hgt
    · rw [if_neg (by omega), if_neg (by omega), bssShiftEntry_buf, if_neg (by omega)]
    · rw [if_neg (by omega), if_pos (by omega), bssShiftEntry_buf, if_pos rfl]
    · have hk : (bssShiftEntry s i).1.buf k = s.1.buf k := by
        rw [bssShiftEntry_buf, if_neg (by omega)]
      have hnext : (bssShiftEntry s i).1.buf (k + 1) = s.1.buf (k + 1) := by
        rw [bssShiftEntry_buf, if_neg (by omega)]
      rw [hk, hnext]
      exact if_congr (by omega) rfl rfl

theorem buf_bssTableDeleteEntry {tab : BssTable} {bssid : List UInt8} {channel : UInt8} {i : Nat}
    (heap : Heap) (h : bssDeleteIndex tab bssid channel = some i) (k : Nat) :
    (bssTableDeleteEntry tab heap bssid channel).1.buf k =
      if i ≤ k ∧ k + 1 < tab.bssNr then (tab.buf k).or (tab.buf (k + 1)) else tab.buf k := by
  have hi : i < tab.bssNr := by simpa using List.mem_of_find?_eq_some h
  unfold bssTableDeleteEntry
  rw [h]
  change (bssZeroEntry _ _).1.buf k = _
  have hzero : ∀ s : BssTable × Heap, (bssZeroEntry s (tab.bssNr - 1)).1.buf = s.1.buf := fun s =>
    buf_setEntry_of_eq s.1 rfl
  rw [hzero, foldl_bssShiftEntry_buf]
  by_cases hin : i ≤ k ∧ k + 1 < tab.bssNr
  · rw [if_pos hin, if_pos (by omega)]
  · rw [if_neg hin, if_neg (by omega)]

theorem bssNr_bssTableDeleteEntry (tab : BssTable) (heap : Heap) (bssid : List UInt8)
    (channel : UInt8) : (bssTableDeleteEntry tab heap bssid channel).1.bssNr ≤ tab.bssNr := by
  unfold bssTableDeleteEntry
  split
  · exact Nat.sub_le _ _
  · exact le_rfl

/-! ## 4. One operation -/

/-- What holds between operations. -/
structure Tables.Inv (s : Tables) : Prop where
  noSharing : NoSharing s.scanTab
  bssNr : s.scanTab.bssNr ≤ maxLenOfBssTable

/-- Deleting shares a buffer exactly when it shifts one over an entry that has none. -/
theorem noSharing_bssTableDeleteEntry {tab : BssTable} (bssid : List UInt8) (channel : UInt8)
    (heap : Heap) (hsep : NoSharing tab) (hnr : tab.bssNr ≤ maxLenOfBssTable) :
    NoSharing (bssTableDeleteEntry tab heap bssid channel).1 ↔
      ∀ i, bssDeleteIndex tab bssid channel = some i →
        ∀ j, i ≤ j → j + 1 < tab.bssNr → tab.buf j = none → tab.buf (j + 1) = none := by
  cases hdel : bssDeleteIndex tab bssid channel with
  | none => simpa [bssTableDeleteEntry, hdel] using hsep
  | some i =>
    have hbuf := buf_bssTableDeleteEntry heap hdel
    constructor
    · rintro hafter _ ⟨⟩ j hij hj hnone
      by_contra hsome
      obtain ⟨p, hp⟩ := Option.ne_none_iff_exists'.mp hsome
      have hcopied : (bssTableDeleteEntry tab heap bssid channel).1.buf j = some p := by
        rw [hbuf, if_pos ⟨hij, hj⟩, hnone, hp]
        rfl
      have hkept : (bssTableDeleteEntry tab heap bssid channel).1.buf (j + 1) = some p := by
        rw [hbuf, hp]
        split_ifs <;> rfl
      have := hafter j (by omega) (j + 1) (by omega) p hcopied hkept
      omega
    · intro hok
      have hsame : (bssTableDeleteEntry tab heap bssid channel).1.buf = tab.buf := by
        funext j
        rw [hbuf]
        split_ifs with hj
        · cases hj' : tab.buf j with
          | none => exact hok i rfl j hj.1 hj.2 hj'
          | some p => rfl
        · rfl
      exact (noSharing_congr hsame).mpr hsep

/-- Initialising the SSID table leaves the scan table's buffers alone exactly when it has nothing to
destroy there. -/
theorem kept_iff (scanTab ssidTab : BssTable) (heap : Heap) :
    (∀ i < maxLenOfBssTable, ∀ p, scanTab.buf i = some p →
      (bssTableInit ssidTab heap).2 p = heap p) ↔
      ∀ k < maxLenOfBssTable, ∀ i < maxLenOfBssTable, ∀ p,
        ssidTab.buf k = some p → scanTab.buf i = some p → heap p = zeroVie := by
  constructor
  · intro hkept k hk i hi p hssid hscan
    rw [← hkept i hi p hscan, heap_bssTableInit, if_pos ⟨k, hk, hssid⟩]
  · intro hok i hi p hscan
    rw [heap_bssTableInit]
    split_ifs with hssid
    · obtain ⟨k, hk, hssid⟩ := hssid
      exact (hok k hk i hi p hssid hscan).symm
    · rfl

theorem buf_storeProbeRsp (tab : BssTable) (heap : Heap) (i : Nat) (pVIE : List UInt8)
    (lenVIE : Nat) : (storeProbeRsp tab heap i pVIE lenVIE).1.buf = tab.buf := by
  unfold storeProbeRsp
  split
  · exact buf_setEntry_of_eq tab rfl
  · exact buf_setEntry_of_eq tab rfl

theorem bssNr_storeProbeRsp (tab : BssTable) (heap : Heap) (i : Nat) (pVIE : List UInt8)
    (lenVIE : Nat) : (storeProbeRsp tab heap i pVIE lenVIE).1.bssNr = tab.bssNr := by
  unfold storeProbeRsp
  split
  · rfl
  · rfl

/-- **One operation**: it is sound exactly when it meets the condition. -/
theorem opSound_iff {s : Tables} (h : s.Inv) (op : TableOp) :
    OpSound getCentCh s op ↔ OpOk s op := by
  cases op with
  | scanInit =>
    have hsame : NoSharing (s.step getCentCh .scanInit).scanTab :=
      (noSharing_congr (buf_bssTableInit s.scanTab s.heap)).mpr h.noSharing
    exact ⟨fun _ => trivial, fun _ => ⟨hsame, nofun⟩⟩
  | scanSet d behind b =>
    have hsame : NoSharing (s.step getCentCh (.scanSet d behind b)).scanTab :=
      (noSharing_congr (buf_bssTableSetEntry getCentCh d behind s.scanTab b)).mpr h.noSharing
    exact ⟨fun _ => trivial, fun _ => ⟨hsame, nofun⟩⟩
  | scanDelete bssid channel =>
    have hiff := noSharing_bssTableDeleteEntry bssid channel s.heap h.noSharing h.bssNr
    exact ⟨fun hsound => hiff.mp hsound.1, fun hok => ⟨hiff.mpr hok, nofun⟩⟩
  | probeRsp i pVIE lenVIE =>
    have hsame : NoSharing (s.step getCentCh (.probeRsp i pVIE lenVIE)).scanTab :=
      (noSharing_congr (buf_storeProbeRsp s.scanTab s.heap i pVIE lenVIE)).mpr h.noSharing
    exact ⟨fun _ => trivial, fun _ => ⟨hsame, nofun⟩⟩
  | ssidInit =>
    have hiff := kept_iff s.scanTab s.ssidTab s.heap
    exact ⟨fun hsound => hiff.mp (hsound.2 rfl).2,
      fun hok => ⟨h.noSharing, fun _ => ⟨rfl, hiff.mpr hok⟩⟩⟩
  | ssidSort cfg allocated ssid ssidLen =>
    have hiff := kept_iff s.scanTab s.ssidTab s.heap
    rw [← heap_bssTableSsidSort cfg allocated ssid ssidLen s.scanTab s.ssidTab s.heap] at hiff
    exact ⟨fun hsound => hiff.mp (hsound.2 rfl).2,
      fun hok => ⟨h.noSharing, fun _ => ⟨rfl, hiff.mpr hok⟩⟩⟩
  | ssidSortByRssi allocated =>
    exact ⟨fun _ => trivial, fun _ => ⟨h.noSharing, fun _ => ⟨rfl, fun _ _ _ _ => rfl⟩⟩⟩

theorem bssNr_step {s : Tables} (h : s.scanTab.bssNr ≤ maxLenOfBssTable) (op : TableOp) :
    (s.step getCentCh op).scanTab.bssNr ≤ maxLenOfBssTable := by
  cases op with
  | scanInit =>
    have h0 := bssNr_bssTableInit s.scanTab s.heap
    exact h0.trans_le (Nat.zero_le _)
  | scanSet d behind b => exact bssNr_bssTableSetEntry getCentCh h
  | scanDelete bssid channel =>
    exact (bssNr_bssTableDeleteEntry s.scanTab s.heap bssid channel).trans h
  | probeRsp i pVIE lenVIE =>
    exact (bssNr_storeProbeRsp s.scanTab s.heap i pVIE lenVIE).trans_le h
  | ssidInit => exact h
  | ssidSort cfg allocated ssid ssidLen => exact h
  | ssidSortByRssi allocated => exact h

/-! ## 5. Runs -/

theorem Tables.inv_start (b : Buffers) : (Tables.start b).Inv where
  noSharing := fun i _ j _ p hi hj => b.distinct i j p hi hj
  bssNr := Nat.zero_le _

/-- **Every run**: it shares no buffer and the SSID table spoils none, all along, exactly when each
operation meets the condition. -/
theorem sound_iff (b : Buffers) (ops : List TableOp) :
    Run.StepsMeet (Tables.step getCentCh) (OpSound getCentCh) (.start b) ops ↔
      Run.StepsMeet (Tables.step getCentCh) OpOk (.start b) ops :=
  Run.stepsMeet_iff Tables.Inv (fun _ op hinv => opSound_iff getCentCh hinv op)
    (fun _ op hinv hsound => ⟨hsound.1, bssNr_step getCentCh hinv.bssNr op⟩) (Tables.inv_start b)

namespace Example

/-- Every entry got its buffer. -/
def buffers : Buffers where
  buf := some
  distinct := fun _ _ _ hi hj => Option.some.inj (hi.trans hj.symm)

def network : List UInt8 := [110, 101, 116]

def probeResponse : Beacon where
  ieList := { bssid := [2, 0, 0, 0, 0, 1], ssid := network, ssidLen := 3, channel := 1 }
  lengthVIE := 5
  pVIE := [0, 3, 110, 101, 116]

/-- A scan that finds one access point. -/
def scanned : List TableOp :=
  [.scanInit, .scanSet {} [] probeResponse, .probeRsp 0 probeResponse.pVIE 5]

def connect : TableOp := .ssidSort {} true network 3

/-- **The second connection** zeroes the buffer of the first entry of the scan table. -/
theorem not_sound_secondConnect :
    ¬ Run.StepsMeet (Tables.step fun _ _ => 0) (OpSound fun _ _ => 0) (.start buffers)
      (scanned ++ [connect, connect]) := by
  intro hsound
  obtain ⟨_, _, _, _, hsecond, _⟩ := hsound
  have hkept := (hsecond.2 rfl).2 0 (by decide) 0 (by decide +kernel)
  revert hkept
  decide +kernel

end Example

end Mt7601.Mlme
