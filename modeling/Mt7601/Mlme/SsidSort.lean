/-
# Choosing the access points for an SSID

`BssTableSsidSort` of `common/mlme.c` once more, with the branches of `WSC_STA_SUPPORT`. Its `Ssid`
is `MlmeAux.Ssid` at every call, and the last branch writes to that very buffer in the middle of the
loop: the entries behind are compared with the new SSID. `selection_iff` says exactly when what comes
out is nevertheless the selected entries, each once, sorted by RSSI.
-/
import Mt7601.Lib.ExchangeSort
import Mt7601.Mlme.SsidTab

namespace Mt7601.Mlme.SsidSort

/-! ## 1. `BssTableSsidSort` -/

/-- `WSC_DISABLE` -/
def wscDisable : UInt8 := 0

/-- What `BssTableSsidSort` looks at of the station's configuration. -/
structure SortConfig extends StaConfig where
  wscConfMode : UInt8 := wscDisable
  bWscTrigger : Bool := false
  wscBssid : List UInt8 := List.replicate 6 0

/-- The part of `MlmeAux` that is written. -/
structure MlmeAux where
  ssid : List UInt8
  ssidLen : UInt8
  autoReconnectSsid : List UInt8 := List.replicate maxLenOfSsid 0
  autoReconnectSsidLen : UInt8 := 0

/-- An SSID in a buffer that has been zeroed. -/
def paddedSsid (ssid : List UInt8) (ssidLen : UInt8) : List UInt8 :=
  Mem.write (List.replicate maxLenOfSsid 0) 0 (Mem.read ssid 0 ssidLen.toNat)

/-- The SSID of the entry is put in the place of the one that is looked for. -/
def MlmeAux.takeSsid (pInBss : BssEntry) : MlmeAux where
  ssid := paddedSsid pInBss.ssid pInBss.ssidLen
  ssidLen := pInBss.ssidLen
  autoReconnectSsid := paddedSsid (paddedSsid pInBss.ssid pInBss.ssidLen) pInBss.ssidLen
  autoReconnectSsidLen := pInBss.ssidLen

/-- What becomes of an entry of the scan table. -/
inductive Verdict where
  | leave
  | take
  /-- taken, and the loop goes on without a look at the room -/
  | takeAtOnce
  /-- the same, and its SSID is looked for from now on -/
  | takeSsid
  deriving DecidableEq

namespace SortConfig

def wscOn (cfg : SortConfig) : Bool := cfg.wscConfMode ≠ wscDisable && cfg.bWscTrigger

/-- `bIsHiddenApIncluded` -/
def hiddenIncluded (cfg : SortConfig) (pInBss : BssEntry) : Bool :=
  cfg.bIEEE80211H && cfg.mlmeAuxChannel > 14 && cfg.radarChannelCheck pInBss.channel &&
    pInBss.hidden

/-- The tests of `BssTableSsidSort` on an entry. -/
def judges (cfg : SortConfig) (ssid : List UInt8) (ssidLen : UInt8) (pInBss : BssEntry) : Verdict :=
  if pInBss.bssType = cfg.bssType ∧
      (ssidEqual ssid ssidLen pInBss.ssid pInBss.ssidLen ∨ cfg.hiddenIncluded pInBss) then
    if cfg.enableWps then .takeAtOnce
    else if cfg.wscOn then .takeAtOnce
    else if cfg.dStrict && !pInBss.bHasCountryIE then .leave
    else if cfg.refusesRates pInBss then .leave
    else if cfg.refusesCiphers true pInBss then .leave
    else if ssidLen = 0 then .leave
    else .take
  else if pInBss.bssType = cfg.bssType ∧ ssidLen = 0 then
    if cfg.wscOn then .takeAtOnce
    else if cfg.refusesRates pInBss then .leave
    else if cfg.refusesCiphers false pInBss then .leave
    else .take
  else if cfg.wscOn ∧ cfg.wscBssid = pInBss.bssid then .takeSsid
  else .leave

end SortConfig

/-- The entries of a table. -/
def entries (tab : BssTable) : List BssEntry := (List.range tab.bssNr).map tab.entry

/-- A copy of the entry behind the others. -/
def copyTo (outTab : BssTable) (pInBss : BssEntry) : BssTable :=
  { outTab.setEntry outTab.bssNr pInBss with bssNr := outTab.bssNr + 1 }

/-- The loop over the scan table. -/
def sortLoop (cfg : SortConfig) (ssidLen : UInt8) :
    List BssEntry → BssTable → MlmeAux → BssTable × MlmeAux
  | [], outTab, aux => (outTab, aux)
  | pInBss :: rest, outTab, aux =>
    match cfg.judges aux.ssid ssidLen pInBss with
    | .leave => sortLoop cfg ssidLen rest outTab aux
    | .take =>
      if (copyTo outTab pInBss).bssNr ≥ maxLenOfBssTable then (copyTo outTab pInBss, aux)
      else sortLoop cfg ssidLen rest (copyTo outTab pInBss) aux
    | .takeAtOnce => sortLoop cfg ssidLen rest (copyTo outTab pInBss) aux
    | .takeSsid => sortLoop cfg ssidLen rest (copyTo outTab pInBss) (.takeSsid pInBss)

/-- `BssTableSsidSort`, with `MlmeAux.Ssid` as the SSID. -/
def bssTableSsidSort (cfg : SortConfig) (allocated : Bool) (aux : MlmeAux) (ssidLen : UInt8)
    (scanTab outTab : BssTable) (heap : Heap) : BssTable × MlmeAux × Heap :=
  let (outTab, heap) := bssTableInit outTab heap
  if ssidLen = 0 ∧ cfg.bAutoConnectIfNoSSID = false then (outTab, aux, heap)
  else
    let (outTab, aux) := sortLoop cfg ssidLen (entries scanTab) outTab aux
    (bssTableSortByRssi allocated outTab, aux, heap)

/-- A scan table: no more entries than it has room for. -/
structure ScanTable extends BssTable where
  bssNr_le : bssNr ≤ maxLenOfBssTable

/-! ## 2. The loop -/

/-- The entries that are taken, one after the other. -/
def chosen (cfg : SortConfig) (ssidLen : UInt8) : List UInt8 → List BssEntry → List BssEntry
  | _, [] => []
  | ssid, e :: es =>
    match cfg.judges ssid ssidLen e with
    | .leave => chosen cfg ssidLen ssid es
    | .take | .takeAtOnce => e :: chosen cfg ssidLen ssid es
    | .takeSsid => e :: chosen cfg ssidLen (paddedSsid e.ssid e.ssidLen) es

theorem length_entries (tab : BssTable) : (entries tab).length = tab.bssNr := by
  rw [entries, List.length_map, List.length_range]

theorem entries_copyTo (outTab : BssTable) (e : BssEntry) :
    entries (copyTo outTab e) = entries outTab ++ [e] := by
  unfold entries copyTo
  rw [List.range_succ, List.map_append, List.map_singleton]
  congr 1
  · refine List.map_congr_left fun k hk => ?_
    exact outTab.entry_setEntry_of_ne e (Nat.ne_of_lt (List.mem_range.mp hk))
  · exact congrArg (fun a => [a]) (outTab.entry_setEntry_self _ e)

/-- **The loop appends what is chosen**, as long as there is room for all. -/
theorem entries_sortLoop (cfg : SortConfig) (ssidLen : UInt8) (es : List BssEntry)
    (outTab : BssTable) (aux : MlmeAux) (hroom : outTab.bssNr + es.length ≤ maxLenOfBssTable) :
    entries (sortLoop cfg ssidLen es outTab aux).1 =
      entries outTab ++ chosen cfg ssidLen aux.ssid es := by
  induction es generalizing outTab aux with
  | nil => rw [chosen, List.append_nil, sortLoop]
  | cons e es ih =>
    rw [List.length_cons] at hroom
    have hnr : (copyTo outTab e).bssNr = outTab.bssNr + 1 := rfl
    have hcopied : ∀ aux' : MlmeAux, entries (sortLoop cfg ssidLen es (copyTo outTab e) aux').1 =
        entries outTab ++ e :: chosen cfg ssidLen aux'.ssid es := by
      intro aux'
      rw [ih _ aux' (by omega), entries_copyTo, List.append_assoc, List.singleton_append]
    rw [sortLoop, chosen]
    cases hv : cfg.judges aux.ssid ssidLen e with
    | leave => exact ih outTab aux (by omega)
    | takeAtOnce => exact hcopied aux
    | takeSsid => exact hcopied (.takeSsid e)
    | take =>
      dsimp only
      by_cases hfull : (copyTo outTab e).bssNr ≥ maxLenOfBssTable
      · -- the table is full, so that was the last entry
        have hnil : es = [] := List.eq_nil_of_length_eq_zero (by omega)
        rw [if_pos hfull, hnil, chosen, entries_copyTo]
      · rw [if_neg hfull]
        exact hcopied aux

theorem entry_bssTableSortByRssi (tab : BssTable) :
    (bssTableSortByRssi true tab).entry =
        ExchangeSort.exchangeSort BssEntry.rssi tab.bssNr tab.entry ∧
      (bssTableSortByRssi true tab).bssNr = tab.bssNr := by
  have hfold : ∀ (l : List (Nat × Nat)) (tab : BssTable),
      (l.foldl bssSwap tab).entry = l.foldl (ExchangeSort.exchange BssEntry.rssi) tab.entry ∧
        (l.foldl bssSwap tab).bssNr = tab.bssNr := by
    intro l
    induction l with
    | nil => exact fun tab => ⟨rfl, rfl⟩
    | cons ij l ih =>
      intro tab
      have hswap : (bssSwap tab ij).entry =
          ExchangeSort.exchange BssEntry.rssi tab.entry ij ∧ (bssSwap tab ij).bssNr = tab.bssNr := by
        unfold bssSwap ExchangeSort.exchange
        by_cases hlt : (tab.entry ij.1).rssi < (tab.entry ij.2).rssi
        · rw [if_pos hlt, if_pos hlt]
          exact ⟨rfl, rfl⟩
        · rw [if_neg hlt, if_neg hlt]
          exact ⟨rfl, rfl⟩
      rw [List.foldl_cons, List.foldl_cons, (ih _).1, (ih _).2, hswap.1, hswap.2]
      exact ⟨rfl, rfl⟩
  exact hfold (ExchangeSort.pairs tab.bssNr) tab

/-- **Sorting** permutes the entries and leaves them in order; without memory it does nothing. -/
theorem entries_bssTableSortByRssi (allocated : Bool) (tab : BssTable) :
    (entries (bssTableSortByRssi allocated tab)).Perm (entries tab) ∧
      (allocated = true → (entries (bssTableSortByRssi allocated tab)).Pairwise fun a b =>
        b.rssi ≤ a.rssi) ∧
      (allocated = false → bssTableSortByRssi allocated tab = tab) := by
  cases allocated with
  | false => exact ⟨List.Perm.refl _, (fun h => nomatch h), fun _ => rfl⟩
  | true =>
    obtain ⟨hentry, hnr⟩ := entry_bssTableSortByRssi tab
    unfold entries
    rw [hentry, hnr]
    exact ⟨ExchangeSort.perm_map_range _ _, fun _ => ExchangeSort.pairwise_map_range _,
      fun h => nomatch h⟩

/-! ### Without WSC -/

/-- The verdict, where the loop without WSC knows three. -/
def Verdict.sorted : Verdict → Sorted
  | .leave => .leave
  | .take => .take
  | .takeAtOnce | .takeSsid => .takeAtOnce

theorem judges_of_off {cfg : SortConfig} (hoff : cfg.wscOn = false) (ssid : List UInt8)
    (ssidLen : UInt8) (e : BssEntry) :
    (cfg.judges ssid ssidLen e).sorted = cfg.toStaConfig.sorts ssid ssidLen e ∧
      cfg.judges ssid ssidLen e ≠ .takeSsid := by
  unfold SortConfig.judges StaConfig.sorts SortConfig.hiddenIncluded
  simp only [hoff, Bool.false_eq_true, if_false, false_and]
  split_ifs <;> exact ⟨rfl, nofun⟩

/-- **Without WSC the loop is the one the SSID table is modelled with.** -/
theorem bssTableSsidSort_of_off {cfg : SortConfig} (hoff : cfg.wscOn = false) (allocated : Bool)
    (aux : MlmeAux) (ssidLen : UInt8) (scanTab outTab : BssTable) (heap : Heap) :
    (bssTableSsidSort cfg allocated aux ssidLen scanTab outTab heap).1 =
      (Mlme.bssTableSsidSort cfg.toStaConfig allocated aux.ssid ssidLen scanTab outTab heap).1 := by
  have hloop : ∀ passes i outTab, (sortLoop cfg ssidLen
      ((List.range' i passes).map scanTab.entry) outTab aux).1 =
        bssSortLoop cfg.toStaConfig aux.ssid ssidLen scanTab passes outTab i := by
    intro passes
    induction passes with
    | zero => exact fun _ _ => rfl
    | succ passes ih =>
      intro i outTab
      obtain ⟨hsorted, hne⟩ := judges_of_off hoff aux.ssid ssidLen (scanTab.entry i)
      rw [List.range'_succ, List.map_cons, sortLoop, bssSortLoop, ← hsorted]
      cases hv : cfg.judges aux.ssid ssidLen (scanTab.entry i) with
      | leave => exact ih (i + 1) outTab
      | takeAtOnce => exact ih (i + 1) _
      | takeSsid => exact absurd hv hne
      | take =>
        simp only [Verdict.sorted]
        split_ifs with hfull hfull' hfull'
        · rfl
        · exact absurd hfull hfull'
        · exact absurd hfull' hfull
        · exact ih (i + 1) _
  have hall := hloop scanTab.bssNr 0 (bssTableInit outTab heap).1
  rw [← List.range_eq_range'] at hall
  unfold bssTableSsidSort Mlme.bssTableSsidSort
  dsimp only
  split_ifs
  · rfl
  · exact congrArg (bssTableSortByRssi allocated) hall

/-! ## 3. The SSID that is compared -/

/-- An entry whose SSID replaces the one that is looked for, or is that one. -/
def isWscBss (cfg : SortConfig) (e : BssEntry) : Bool :=
  cfg.wscOn && cfg.wscBssid = e.bssid && !(e.bssType = cfg.bssType && cfg.hiddenIncluded e)

/-- The SSID that is looked for behind some entries: that of the last such entry among them. -/
def wanted (cfg : SortConfig) (ssid : List UInt8) (seen : List BssEntry) : List UInt8 :=
  seen.foldl (fun ssid e => if isWscBss cfg e then paddedSsid e.ssid e.ssidLen else ssid) ssid

/-- What is in `MlmeAux.Ssid` behind an entry. -/
def ssidBehind (cfg : SortConfig) (ssidLen : UInt8) (ssid : List UInt8) (e : BssEntry) :
    List UInt8 :=
  if cfg.judges ssid ssidLen e = .takeSsid then paddedSsid e.ssid e.ssidLen else ssid

/-- Two buffers that are compared alike. -/
def SameSsid (ssidLen : UInt8) (ssid ssid' : List UInt8) : Prop :=
  Mem.read ssid 0 ssidLen.toNat = Mem.read ssid' 0 ssidLen.toNat

theorem SameSsid.ssidEqual {ssidLen : UInt8} {ssid ssid' : List UInt8}
    (h : SameSsid ssidLen ssid ssid') (other : List UInt8) (len : UInt8) :
    ssidEqual ssid ssidLen other len = ssidEqual ssid' ssidLen other len := by
  unfold Mlme.ssidEqual
  rw [h]

theorem SameSsid.judges {cfg : SortConfig} {ssidLen : UInt8} {ssid ssid' : List UInt8}
    (h : SameSsid ssidLen ssid ssid') (e : BssEntry) :
    cfg.judges ssid ssidLen e = cfg.judges ssid' ssidLen e := by
  unfold SortConfig.judges
  rw [h.ssidEqual]

/-- A buffer that the SSID of the entry is equal to is compared as that SSID would be. -/
theorem sameSsid_of_ssidEqual {ssidLen : UInt8} {ssid : List UInt8} {e : BssEntry}
    (h : ssidEqual ssid ssidLen e.ssid e.ssidLen = true) :
    SameSsid ssidLen ssid (paddedSsid e.ssid e.ssidLen) := by
  unfold Mlme.ssidEqual at h
  rw [Bool.and_eq_true, beq_iff_eq, beq_iff_eq] at h
  obtain ⟨hlen, hread⟩ := h
  unfold SameSsid paddedSsid
  rw [hread, hlen]
  have hwrite := Mem.read_write (List.replicate maxLenOfSsid 0)
    (Mem.read e.ssid 0 e.ssidLen.toNat) 0
  rw [Mem.length_read] at hwrite
  exact hwrite.symm

theorem judges_eq_takeSsid {cfg : SortConfig} {ssid : List UInt8} {ssidLen : UInt8} {e : BssEntry}
    (h : cfg.judges ssid ssidLen e = .takeSsid) : isWscBss cfg e = true := by
  unfold SortConfig.judges at h
  by_cases hfirst : e.bssType = cfg.bssType ∧
      (ssidEqual ssid ssidLen e.ssid e.ssidLen ∨ cfg.hiddenIncluded e)
  · rw [if_pos hfirst] at h
    split_ifs at h
  · rw [if_neg hfirst] at h
    by_cases hany : e.bssType = cfg.bssType ∧ ssidLen = 0
    · rw [if_pos hany] at h
      split_ifs at h
    · rw [if_neg hany] at h
      by_cases hwsc : cfg.wscOn ∧ cfg.wscBssid = e.bssid
      · unfold isWscBss
        have hhidden : ¬ (e.bssType = cfg.bssType ∧ cfg.hiddenIncluded e = true) :=
          fun hh => hfirst ⟨hh.1, .inr hh.2⟩
        simp only [hwsc.1, hwsc.2, decide_true, Bool.and_self, Bool.true_and, Bool.not_eq_true',
          Bool.and_eq_false_iff, decide_eq_false_iff_not]
        by_cases htype : e.bssType = cfg.bssType
        · exact .inr (Bool.eq_false_iff.mpr fun hh => hhidden ⟨htype, hh⟩)
        · exact .inl htype
      · rw [if_neg hwsc] at h
        exact nomatch h

/-- **One entry** moves the buffer and `wanted` alike. -/
theorem SameSsid.behind {cfg : SortConfig} {ssidLen : UInt8} {buffer ssid : List UInt8}
    (h : SameSsid ssidLen buffer ssid) (e : BssEntry) :
    SameSsid ssidLen (ssidBehind cfg ssidLen buffer e)
      (if isWscBss cfg e then paddedSsid e.ssid e.ssidLen else ssid) := by
  unfold ssidBehind
  by_cases htake : cfg.judges buffer ssidLen e = .takeSsid
  · rw [if_pos htake, if_pos (judges_eq_takeSsid htake)]
    rfl
  rw [if_neg htake]
  by_cases hwsc : isWscBss cfg e = true
  swap
  · rw [if_neg hwsc]
    exact h
  · -- it is of the BSSID, but has been taken for its SSID, or any SSID will do
    rw [if_pos hwsc]
    unfold isWscBss at hwsc
    simp only [Bool.and_eq_true, decide_eq_true_eq, Bool.not_eq_true', Bool.and_eq_false_iff,
      decide_eq_false_iff_not] at hwsc
    obtain ⟨⟨hon, hbssid⟩, hhidden⟩ := hwsc
    unfold SortConfig.judges at htake
    by_cases htype : e.bssType = cfg.bssType
    · have hshown : cfg.hiddenIncluded e = false := hhidden.resolve_left fun hh => hh htype
      cases heq : Mlme.ssidEqual buffer ssidLen e.ssid e.ssidLen with
      | true => exact sameSsid_of_ssidEqual heq
      | false =>
        by_cases hlen : ssidLen = 0
        · rw [hlen]
          rfl
        · simp [htype, heq, hshown, hlen, hon, hbssid] at htake
    · simp [htype, hon, hbssid] at htake

/-! ## 4. What is selected -/

/-- **The selection predicate.** -/
def selects (cfg : SortConfig) (ssid : List UInt8) (ssidLen : UInt8) (e : BssEntry) : Bool :=
  !(ssidLen = 0 && cfg.bAutoConnectIfNoSSID = false) && cfg.judges ssid ssidLen e ≠ .leave

/-- **The table holds the selection**: each selected entry once and no other, the strongest first. -/
structure Selection (cfg : SortConfig) (ssid : List UInt8) (ssidLen : UInt8)
    (scanTab outTab : BssTable) : Prop where
  perm : (entries outTab).Perm ((entries scanTab).filter (selects cfg ssid ssidLen))
  sorted : (entries outTab).Pairwise fun a b => b.rssi ≤ a.rssi

/-- **The condition.** An entry that its SSID decides on is compared with the SSID of the call, or with
one that makes no difference to it. -/
def SsidStays (cfg : SortConfig) (ssid : List UInt8) (ssidLen : UInt8) (scanTab : BssTable) : Prop :=
  ∀ seen e rest, entries scanTab = seen ++ e :: rest → e.bssType = cfg.bssType →
    cfg.hiddenIncluded e = false → cfg.wscBssid ≠ e.bssid →
    ssidEqual (wanted cfg ssid seen) ssidLen e.ssid e.ssidLen =
      ssidEqual ssid ssidLen e.ssid e.ssidLen

/-- The entries with what is decided on each. -/
def decisions (cfg : SortConfig) (ssidLen : UInt8) :
    List UInt8 → List BssEntry → List (BssEntry × Bool)
  | _, [] => []
  | ssid, e :: es =>
    (e, decide (cfg.judges ssid ssidLen e ≠ .leave)) ::
      decisions cfg ssidLen (ssidBehind cfg ssidLen ssid e) es

theorem chosen_eq (cfg : SortConfig) (ssidLen : UInt8) (ssid : List UInt8) (es : List BssEntry) :
    chosen cfg ssidLen ssid es =
      ((decisions cfg ssidLen ssid es).filter fun d => d.2).map Prod.fst := by
  induction es generalizing ssid with
  | nil => rfl
  | cons e es ih =>
    rw [chosen, decisions, ssidBehind]
    cases hv : cfg.judges ssid ssidLen e <;> simp [ih]

theorem map_fst_decisions (cfg : SortConfig) (ssidLen : UInt8) (ssid : List UInt8)
    (es : List BssEntry) : (decisions cfg ssidLen ssid es).map Prod.fst = es := by
  induction es generalizing ssid with
  | nil => rfl
  | cons e es ih => rw [decisions, List.map_cons, ih]

/-- If no element satisfies one of two predicates more often than both, the two agree. -/
theorem agree_of_countP_le {α : Type*} {p q : α → Bool} {l : List α}
    (hp : l.countP p ≤ l.countP fun a => p a && q a)
    (hq : l.countP q ≤ l.countP fun a => p a && q a) : ∀ a ∈ l, p a = q a := by
  induction l with
  | nil => exact fun a ha => absurd ha List.not_mem_nil
  | cons b l ih =>
    have hlep : (l.countP fun a => p a && q a) ≤ l.countP p :=
      List.countP_mono_left fun a _ h => (Bool.and_eq_true_iff.mp h).1
    have hleq : (l.countP fun a => p a && q a) ≤ l.countP q :=
      List.countP_mono_left fun a _ h => (Bool.and_eq_true_iff.mp h).2
    have hturn : p b = q b ∧ (l.countP p ≤ l.countP fun a => p a && q a) ∧
        (l.countP q ≤ l.countP fun a => p a && q a) := by
      rw [List.countP_cons, List.countP_cons] at hp hq
      cases hpb : p b <;> cases hqb : q b <;> simp [hpb, hqb] at hp hq ⊢ <;> omega
    intro a ha
    rcases List.mem_cons.mp ha with rfl | hin
    · exact hturn.1
    · exact ih hturn.2.1 hturn.2.2 a hin

/-- Marking some elements gives those that satisfy a predicate, in whatever order, only if it marks
exactly these. -/
theorem marks_eq_of_perm {α : Type*} {P : α → Bool} {l : List (α × Bool)}
    (h : ((l.filter fun d => d.2).map Prod.fst).Perm ((l.map Prod.fst).filter P)) :
    ∀ d ∈ l, d.2 = P d.1 := by
  have hlength := h.length_eq
  have hcount := h.countP_eq P
  rw [List.length_map, ← List.countP_eq_length_filter, ← List.countP_eq_length_filter,
    List.countP_map] at hlength
  rw [List.countP_map, List.countP_filter, List.countP_filter, List.countP_map] at hcount
  simp only [Function.comp_def, Bool.and_self, Bool.and_comm] at hlength hcount
  refine agree_of_countP_le (p := fun d : α × Bool => d.2) (q := fun d => P d.1) ?_ ?_
  · exact Nat.le_of_eq (hlength.trans hcount.symm)
  · exact Nat.le_of_eq hcount.symm

theorem filter_marks {α : Type*} {P : α → Bool} {l : List (α × Bool)}
    (h : ∀ d ∈ l, d.2 = P d.1) :
    (l.filter fun d => d.2).map Prod.fst = (l.map Prod.fst).filter P := by
  rw [List.filter_map]
  exact congrArg (List.map Prod.fst) (List.filter_congr h)

/-- What is decided on the entries, in terms of the SSID that is looked for at each. -/
theorem decisions_forall_iff {cfg : SortConfig} {ssidLen : UInt8} {P : BssEntry → Bool}
    (es : List BssEntry) {buffer ssid : List UInt8} (h : SameSsid ssidLen buffer ssid) :
    (∀ d ∈ decisions cfg ssidLen buffer es, d.2 = P d.1) ↔
      ∀ seen e rest, es = seen ++ e :: rest →
        decide (cfg.judges (wanted cfg ssid seen) ssidLen e ≠ .leave) = P e := by
  induction es generalizing buffer ssid with
  | nil =>
    refine ⟨fun _ seen e rest hsplit => ?_, fun _ d hd => absurd hd List.not_mem_nil⟩
    exact absurd hsplit.symm (List.append_ne_nil_of_right_ne_nil seen (List.cons_ne_nil e rest))
  | cons a es ih =>
    rw [decisions, List.forall_mem_cons, ih (h.behind a), h.judges a]
    constructor
    · rintro ⟨hhead, hrest⟩ seen e rest hsplit
      cases seen with
      | nil =>
        obtain ⟨rfl, rfl⟩ := List.cons.inj hsplit
        exact hhead
      | cons b seen =>
        obtain ⟨rfl, htail⟩ := List.cons.inj hsplit
        exact hrest seen e rest htail
    · intro hall
      exact ⟨hall [] a es rfl, fun seen e rest hsplit => hall (a :: seen) e rest (by rw [hsplit]; rfl)⟩

/-! ## 5. When the selection comes out -/

/-- With a WSC registration going on, the security of an entry is not looked at. -/
theorem judges_ne_leave_iff {cfg : SortConfig} (hon : cfg.wscOn = true) (ssid : List UInt8)
    (ssidLen : UInt8) (e : BssEntry) :
    cfg.judges ssid ssidLen e ≠ .leave ↔
      (e.bssType = cfg.bssType ∧ (ssidEqual ssid ssidLen e.ssid e.ssidLen ∨ cfg.hiddenIncluded e)) ∨
        (e.bssType = cfg.bssType ∧ ssidLen = 0) ∨ cfg.wscBssid = e.bssid := by
  unfold SortConfig.judges
  by_cases hfirst : e.bssType = cfg.bssType ∧
      (ssidEqual ssid ssidLen e.ssid e.ssidLen ∨ cfg.hiddenIncluded e)
  · rw [if_pos hfirst]
    refine ⟨fun _ => .inl hfirst, fun _ => ?_⟩
    rw [if_pos hon]
    split_ifs <;> nofun
  rw [if_neg hfirst]
  by_cases hany : e.bssType = cfg.bssType ∧ ssidLen = 0
  · rw [if_pos hany, if_pos hon]
    exact ⟨fun _ => .inr (.inl hany), fun _ => nofun⟩
  rw [if_neg hany]
  by_cases hbssid : cfg.wscBssid = e.bssid
  · rw [if_pos ⟨hon, hbssid⟩]
    exact ⟨fun _ => .inr (.inr hbssid), fun _ => nofun⟩
  · rw [if_neg fun h => hbssid h.2]
    refine ⟨fun h => absurd rfl h, fun h => ?_⟩
    rcases h with h | h | h
    · exact absurd h hfirst
    · exact absurd h hany
    · exact absurd h hbssid

theorem wanted_of_off {cfg : SortConfig} (hoff : cfg.wscOn = false) (ssid : List UInt8)
    (seen : List BssEntry) : wanted cfg ssid seen = ssid := by
  induction seen with
  | nil => rfl
  | cons e seen ih =>
    have hno : ¬ isWscBss cfg e = true := by simp [isWscBss, hoff]
    unfold wanted at ih ⊢
    rw [List.foldl_cons, if_neg hno, ih]

/-- An entry is judged alike for both SSIDs, if the comparison comes out alike or does not matter. -/
theorem judged_alike_iff (cfg : SortConfig) (ssid : List UInt8) (ssidLen : UInt8)
    (seen : List BssEntry) (e : BssEntry) :
    (decide (cfg.judges (wanted cfg ssid seen) ssidLen e ≠ .leave) =
        decide (cfg.judges ssid ssidLen e ≠ .leave)) ↔
      (e.bssType = cfg.bssType → cfg.hiddenIncluded e = false → cfg.wscBssid ≠ e.bssid →
        ssidEqual (wanted cfg ssid seen) ssidLen e.ssid e.ssidLen =
          ssidEqual ssid ssidLen e.ssid e.ssidLen) := by
  cases hon : cfg.wscOn with
  | false => simp [wanted_of_off hon]
  | true =>
    rw [decide_eq_decide, judges_ne_leave_iff hon, judges_ne_leave_iff hon]
    by_cases hlen : ssidLen = 0
    · have hsame : SameSsid ssidLen (wanted cfg ssid seen) ssid := by
        rw [hlen]
        rfl
      simp [hsame.ssidEqual]
    by_cases htype : e.bssType = cfg.bssType
    swap
    · simp [htype]
    by_cases hbssid : cfg.wscBssid = e.bssid
    · simp [hbssid]
    cases hhidden : cfg.hiddenIncluded e with
    | true => simp [htype]
    | false =>
      simp only [htype, hlen, hbssid, true_and, and_false, or_false, Bool.false_eq_true, ne_eq,
        not_false_eq_true, true_implies]
      exact Bool.eq_iff_iff.symm

theorem entries_bssTableInit (outTab : BssTable) (heap : Heap) :
    entries (bssTableInit outTab heap).1 = [] := by
  unfold entries
  rw [bssNr_bssTableInit, List.range_zero, List.map_nil]

/-- The table that comes out, before it is sorted. -/
theorem perm_bssTableSsidSort (cfg : SortConfig) (allocated : Bool) (aux : MlmeAux)
    {ssidLen : UInt8} (scanTab : ScanTable) (outTab : BssTable) (heap : Heap)
    (hlook : ¬ (ssidLen = 0 ∧ cfg.bAutoConnectIfNoSSID = false)) :
    ∃ tab : BssTable,
      (bssTableSsidSort cfg allocated aux ssidLen scanTab.toBssTable outTab heap).1 =
        bssTableSortByRssi allocated tab ∧
      entries tab = chosen cfg ssidLen aux.ssid (entries scanTab.toBssTable) := by
  refine ⟨(sortLoop cfg ssidLen (entries scanTab.toBssTable) (bssTableInit outTab heap).1 aux).1,
    ?_, ?_⟩
  · unfold bssTableSsidSort
    dsimp only
    rw [if_neg hlook]
  · have hroom : (bssTableInit outTab heap).1.bssNr + (entries scanTab.toBssTable).length ≤
        maxLenOfBssTable := by
      rw [bssNr_bssTableInit, length_entries, Nat.zero_add]
      exact scanTab.bssNr_le
    rw [entries_sortLoop cfg ssidLen _ _ aux hroom, entries_bssTableInit, List.nil_append]

/-- **The output is the selection, sorted, exactly when** the SSID that is looked for makes no
difference to an entry it decides on, and there is memory to sort with, or nothing to sort. -/
theorem selection_iff (cfg : SortConfig) (allocated : Bool) (aux : MlmeAux) (ssidLen : UInt8)
    (scanTab : ScanTable) (outTab : BssTable) (heap : Heap) :
    Selection cfg aux.ssid ssidLen scanTab.toBssTable
        (bssTableSsidSort cfg allocated aux ssidLen scanTab.toBssTable outTab heap).1 ↔
      SsidStays cfg aux.ssid ssidLen scanTab.toBssTable ∧
        (allocated = true ∨ ((entries scanTab.toBssTable).filter
          (selects cfg aux.ssid ssidLen)).Pairwise fun a b => b.rssi ≤ a.rssi) := by
  by_cases hlook : ssidLen = 0 ∧ cfg.bAutoConnectIfNoSSID = false
  · -- no SSID, and none is to do: nothing is selected
    have hnone : (entries scanTab.toBssTable).filter (selects cfg aux.ssid ssidLen) = [] := by
      refine List.filter_eq_nil_iff.mpr fun e _ => ?_
      simp [selects, hlook.1, hlook.2]
    have hout : entries (bssTableSsidSort cfg allocated aux ssidLen scanTab.toBssTable outTab
        heap).1 = [] := by
      unfold bssTableSsidSort
      dsimp only
      rw [if_pos hlook]
      exact entries_bssTableInit outTab heap
    have hstays : SsidStays cfg aux.ssid ssidLen scanTab.toBssTable := by
      intro seen e rest _ _ _ _
      have hsame : SameSsid ssidLen (wanted cfg aux.ssid seen) aux.ssid := by
        rw [hlook.1]
        rfl
      exact hsame.ssidEqual _ _
    refine ⟨fun _ => ⟨hstays, .inr ?_⟩, fun _ => ⟨?_, ?_⟩⟩
    · rw [hnone]
      exact List.Pairwise.nil
    · rw [hnone, hout]
    · rw [hout]
      exact List.Pairwise.nil
  obtain ⟨tab, hout, htab⟩ := perm_bssTableSsidSort cfg allocated aux scanTab outTab heap hlook
  have hselects : selects cfg aux.ssid ssidLen =
      fun e => decide (cfg.judges aux.ssid ssidLen e ≠ .leave) := by
    funext e
    have hlook' : (ssidLen = 0 && decide (cfg.bAutoConnectIfNoSSID = false)) = false := by
      simpa using hlook
    rw [selects, hlook', Bool.not_false, Bool.true_and]
  -- what is decided on each entry, and what should be
  have hstays : SsidStays cfg aux.ssid ssidLen scanTab.toBssTable ↔
      ∀ d ∈ decisions cfg ssidLen aux.ssid (entries scanTab.toBssTable),
        d.2 = selects cfg aux.ssid ssidLen d.1 := by
    rw [decisions_forall_iff _ (show SameSsid _ _ aux.ssid from rfl), hselects]
    unfold SsidStays
    constructor
    · intro h seen e rest hsplit
      exact (judged_alike_iff cfg aux.ssid ssidLen seen e).mpr (h seen e rest hsplit)
    · intro h seen e rest hsplit
      exact (judged_alike_iff cfg aux.ssid ssidLen seen e).mp (h seen e rest hsplit)
  obtain ⟨hperm, hsorted, hunsorted⟩ := entries_bssTableSortByRssi allocated tab
  rw [hstays, hout]
  constructor
  · rintro ⟨hsel, hpair⟩
    have hmarks : ∀ d ∈ decisions cfg ssidLen aux.ssid (entries scanTab.toBssTable),
        d.2 = selects cfg aux.ssid ssidLen d.1 := by
      refine marks_eq_of_perm ?_
      rw [map_fst_decisions, ← chosen_eq, ← htab]
      exact hperm.symm.trans hsel
    refine ⟨hmarks, ?_⟩
    cases hall : allocated with
    | true => exact .inl rfl
    | false =>
      refine .inr ?_
      rw [hunsorted hall, htab, chosen_eq, filter_marks hmarks, map_fst_decisions] at hpair
      exact hpair
  · rintro ⟨hmarks, hcase⟩
    have hchosen : entries tab = (entries scanTab.toBssTable).filter
        (selects cfg aux.ssid ssidLen) := by
      rw [htab, chosen_eq, filter_marks hmarks, map_fst_decisions]
    refine ⟨hperm.trans (List.Perm.of_eq hchosen), ?_⟩
    cases hall : allocated with
    | true => rw [← hall]; exact hsorted hall
    | false =>
      rw [← hall, hunsorted hall, hchosen]
      exact hcase.resolve_left (by rw [hall]; decide)

namespace Example

/-- A registration with the access point `1`, from a button. -/
def registering : SortConfig where
  wscConfMode := 1
  bWscTrigger := true
  wscBssid := [1, 1, 1, 1, 1, 1]

/-- An access point with an SSID of three letters. -/
def apWith (bssid letter : UInt8) (rssi : Int) : BssEntry where
  bssid := List.replicate 6 bssid
  bssType := bssInfra
  ssid := List.replicate 3 letter ++ List.replicate 29 0
  ssidLen := 3
  rssi := rssi

def scanOf (entry : Nat → BssEntry) (bssNr : Nat) (h : bssNr ≤ maxLenOfBssTable) : ScanTable where
  bssNr := bssNr
  bssOverlapNr := 0
  entry := entry
  bssNr_le := h

/-- The access point of the registration has changed its SSID; a second one has the wanted SSID. -/
def changedSsid : ScanTable :=
  scanOf (fun i => if i = 0 then apWith 1 98 (-40) else apWith 2 97 (-50)) 2 (by decide)

def wantedSsid : MlmeAux where
  ssid := List.replicate 3 97 ++ List.replicate 29 0
  ssidLen := 3

def emptyTable : BssTable := ⟨0, 0, fun _ => {}⟩

/-- The second access point is left out, for the first one stands in front of it. -/
theorem not_selection_changedSsid :
    ¬ Selection registering wantedSsid.ssid 3 changedSsid.toBssTable
      (bssTableSsidSort registering true wantedSsid 3 changedSsid.toBssTable emptyTable
        fun _ => []).1 := by
  intro h
  have hlength := h.perm.length_eq
  rw [length_entries] at hlength
  revert hlength
  decide +kernel

end Example

end Mt7601.Mlme.SsidSort
