/-
# What the choice of access points depends on

A station set to WPA2 is to choose by what an access point announces in its RSN element, and a
station set to WPA by the WPA element. `BssTableSsidSort` compares, for a WPA2 station with an SSID,
the group cipher of the other structure; `selection_independent` says which scan tables that does not
show on. The argument is a lockstep of two runs over tables that differ where they may.
-/
import Mt7601.Mlme.SsidSort

namespace Mt7601.Mlme.SsidSort

/-! ## 1. Tables that differ in one structure -/

/-- Two entries with the same contents, but for `WPA.*`. -/
def SameButWpa (e e' : BssEntry) : Prop :=
  ∃ wpa, e' = { e with ciphers := { e.ciphers with wpa := wpa } }

/-- Two entries with the same contents, but for `WPA2.*`. -/
def SameButWpa2 (e e' : BssEntry) : Prop :=
  ∃ wpa2, e' = { e with ciphers := { e.ciphers with wpa2 := wpa2 } }

def AnnouncesRsn (e : BssEntry) : Prop := e.rsnIE.ieLen ≠ 0

def AnnouncesWpa (e : BssEntry) : Prop := e.wpaIE.ieLen ≠ 0

instance (e : BssEntry) : Decidable (AnnouncesRsn e) := inferInstanceAs (Decidable (_ ≠ _))

instance (e : BssEntry) : Decidable (AnnouncesWpa e) := inferInstanceAs (Decidable (_ ≠ _))

/-- Two scan tables that differ in such contents only, and of such entries only. -/
structure Differ (Announces : BssEntry → Prop) (Same : BssEntry → BssEntry → Prop)
    (scanTab scanTab' : BssTable) : Prop where
  bssNr : scanTab'.bssNr = scanTab.bssNr
  announcing : ∀ i, Announces (scanTab.entry i) → Same (scanTab.entry i) (scanTab'.entry i)
  other : ∀ i, ¬ Announces (scanTab.entry i) → scanTab'.entry i = scanTab.entry i

/-- The same access points are chosen, in the same order. -/
def SameSelection (Same : BssEntry → BssEntry → Prop) (outTab outTab' : BssTable) : Prop :=
  outTab'.bssNr = outTab.bssNr ∧
    ∀ i, i < outTab.bssNr → Same (outTab.entry i) (outTab'.entry i)

/-! ## 2. Lockstep -/

/-- What the loop and the sort see of two entries is the same. -/
structure Alike (e e' : BssEntry) : Prop where
  rssi : e'.rssi = e.rssi
  ssid : e'.ssid = e.ssid
  ssidLen : e'.ssidLen = e.ssidLen

theorem SameButWpa.alike {e e' : BssEntry} (h : SameButWpa e e') : Alike e e' := by
  obtain ⟨wpa, rfl⟩ := h
  exact ⟨rfl, rfl, rfl⟩

theorem SameButWpa2.alike {e e' : BssEntry} (h : SameButWpa2 e e') : Alike e e' := by
  obtain ⟨wpa2, rfl⟩ := h
  exact ⟨rfl, rfl, rfl⟩

section

variable {Same : BssEntry → BssEntry → Prop} (halike : ∀ e e', Same e e' → Alike e e')
include halike

/-- The same is chosen from two lists, if each entry is judged as its counterpart is: for the SSID
that is looked for, or, where it may be replaced, for any. -/
theorem forall₂_chosen {cfg : SortConfig} {ssidLen : UInt8} {ssid₀ : List UInt8}
    {es es' : List BssEntry} (hes : List.Forall₂ (fun e e' => Same e e' ∧ ∀ ssid,
      (cfg.wscOn = true ∨ ssid = ssid₀) →
        cfg.judges ssid ssidLen e' = cfg.judges ssid ssidLen e) es es') {ssid : List UInt8}
    (hssid : cfg.wscOn = true ∨ ssid = ssid₀) :
    List.Forall₂ Same (chosen cfg ssidLen ssid es) (chosen cfg ssidLen ssid es') := by
  induction hes generalizing ssid with
  | nil => exact List.Forall₂.nil
  | @cons e e' es es' h hrest ih =>
    obtain ⟨hsame, hjudge⟩ := h
    rw [chosen, chosen, hjudge ssid hssid]
    cases hv : cfg.judges ssid ssidLen e with
    | leave => exact ih hssid
    | take => exact List.Forall₂.cons hsame (ih hssid)
    | takeAtOnce => exact List.Forall₂.cons hsame (ih hssid)
    | takeSsid =>
      have hon : cfg.wscOn = true := by
        have hwsc := judges_eq_takeSsid hv
        simp only [isWscBss, Bool.and_eq_true] at hwsc
        exact hwsc.1.1
      have hlike := halike e e' hsame
      dsimp only
      rw [hlike.ssid, hlike.ssidLen]
      exact List.Forall₂.cons hsame (ih (.inl hon))

/-- Sorting keeps counterparts in step. -/
theorem sameSelection_sort {allocated : Bool} {tab tab' : BssTable}
    (h : SameSelection Same tab tab') :
    SameSelection Same (bssTableSortByRssi allocated tab) (bssTableSortByRssi allocated tab') := by
  cases allocated with
  | false => exact h
  | true =>
    obtain ⟨hnr, hsame⟩ := h
    unfold SameSelection
    rw [(entry_bssTableSortByRssi tab).1, (entry_bssTableSortByRssi tab).2,
      (entry_bssTableSortByRssi tab').1, (entry_bssTableSortByRssi tab').2, hnr]
    refine ⟨rfl, fun i hi => ?_⟩
    exact ExchangeSort.congr (fun a b hab => (halike a b hab).rssi.symm) hsame hi

theorem sameSelection_of_judges {cfg : SortConfig} {allocated : Bool} {aux : MlmeAux}
    {ssidLen : UInt8} {scanTab scanTab' : ScanTable} (outTab : BssTable) (heap : Heap)
    (hnr : scanTab'.bssNr = scanTab.bssNr)
    (hsame : ∀ i, i < scanTab.bssNr → Same (scanTab.entry i) (scanTab'.entry i) ∧ ∀ ssid,
      (cfg.wscOn = true ∨ ssid = aux.ssid) →
        cfg.judges ssid ssidLen (scanTab'.entry i) = cfg.judges ssid ssidLen (scanTab.entry i)) :
    SameSelection Same
      (bssTableSsidSort cfg allocated aux ssidLen scanTab.toBssTable outTab heap).1
      (bssTableSsidSort cfg allocated aux ssidLen scanTab'.toBssTable outTab heap).1 := by
  by_cases hlook : ssidLen = 0 ∧ cfg.bAutoConnectIfNoSSID = false
  · unfold bssTableSsidSort
    dsimp only
    rw [if_pos hlook, if_pos hlook]
    refine ⟨rfl, fun i hi => ?_⟩
    rw [bssNr_bssTableInit] at hi
    exact absurd hi (Nat.not_lt_zero i)
  obtain ⟨tab, hout, htab⟩ := perm_bssTableSsidSort cfg allocated aux scanTab outTab heap hlook
  obtain ⟨tab', hout', htab'⟩ := perm_bssTableSsidSort cfg allocated aux scanTab' outTab heap hlook
  have hlists : List.Forall₂ Same (entries tab) (entries tab') := by
    rw [htab, htab']
    refine forall₂_chosen halike ?_ (show _ ∨ aux.ssid = aux.ssid from .inr rfl)
    unfold entries
    rw [List.forall₂_map_left_iff, List.forall₂_map_right_iff, hnr]
    exact List.forall₂_same.mpr fun i hi => hsame i (List.mem_range.mp hi)
  rw [hout, hout']
  refine sameSelection_sort halike ⟨?_, fun i hi => ?_⟩
  · rw [← length_entries, ← length_entries]
    exact hlists.length_eq.symm
  · have hget := hlists.get (i := i) (by rw [length_entries]; exact hi)
      (by rw [← hlists.length_eq, length_entries]; exact hi)
    simpa [entries] using hget

end

/-! ## 3. The tests on the ciphers -/

/-- The tests that a WPA2 station makes on the right structure. -/
def refusesWpa2 (cfg : SortConfig) (c : Ciphers) : Bool :=
  (cfg.authMode ≠ c.authMode && cfg.authMode ≠ c.authModeAux) ||
    ((!c.wpa2.bMixMode && cfg.wepStatus ≠ c.wpa2.groupCipher) || cfg.refusesPair c.wpa2)

/-- The group cipher of WPA2 is not one of WEP, so that the other one is compared. -/
def comparesGroup (c : Ciphers) : Bool :=
  c.wpa2.groupCipher ≠ WepStatus.groupWep40Enabled &&
    c.wpa2.groupCipher ≠ WepStatus.groupWep104Enabled

theorem refusesCiphers_wpa2 {cfg : SortConfig}
    (hmode : cfg.authMode = AuthenticationMode.wpa2 ∨ cfg.authMode = AuthenticationMode.wpa2Psk)
    (e : BssEntry) :
    cfg.refusesCiphers true e = (refusesWpa2 cfg e.ciphers ||
      (decide (cfg.wepStatus < e.ciphers.wpa.groupCipher) && comparesGroup e.ciphers)) := by
  have hge : cfg.authMode ≥ AuthenticationMode.wpa := by
    rcases hmode with h | h <;> rw [h] <;> decide
  have hne : ¬ (cfg.authMode = AuthenticationMode.wpa ∨
      cfg.authMode = AuthenticationMode.wpaPsk) := by
    rcases hmode with h | h <;> rw [h] <;> decide
  unfold StaConfig.refusesCiphers StaConfig.refusesGroup refusesWpa2 comparesGroup
  dsimp only
  rw [if_pos hge, if_neg hne, if_pos hmode, if_pos rfl]
  simp only [Bool.not_true, Bool.false_or]
  generalize decide (cfg.wepStatus < e.ciphers.wpa.groupCipher) = less
  generalize cfg.refusesPair e.ciphers.wpa2 = pair
  cases less <;> cases pair <;> simp [Bool.or_assoc]

theorem refusesCiphers_anySsid {cfg : SortConfig}
    (hmode : cfg.authMode = AuthenticationMode.wpa2 ∨ cfg.authMode = AuthenticationMode.wpa2Psk)
    {e e' : BssEntry} (h : SameButWpa e e') :
    cfg.refusesCiphers false e' = cfg.refusesCiphers false e := by
  have hge : cfg.authMode ≥ AuthenticationMode.wpa := by
    rcases hmode with h | h <;> rw [h] <;> decide
  have hne : ¬ (cfg.authMode = AuthenticationMode.wpa ∨
      cfg.authMode = AuthenticationMode.wpaPsk) := by
    rcases hmode with h | h <;> rw [h] <;> decide
  obtain ⟨wpa, rfl⟩ := h
  unfold StaConfig.refusesCiphers
  dsimp only
  rw [if_pos hge, if_pos hge, if_neg hne, if_neg hne, if_pos hmode, if_pos hmode]
  rfl

/-- The tests of a WPA station look at the WPA structure only. -/
theorem refusesCiphers_wpa {cfg : SortConfig}
    (hmode : cfg.authMode = AuthenticationMode.wpa ∨ cfg.authMode = AuthenticationMode.wpaPsk)
    {e e' : BssEntry} (h : SameButWpa2 e e') (withSsid : Bool) :
    cfg.refusesCiphers withSsid e' = cfg.refusesCiphers withSsid e := by
  have hge : cfg.authMode ≥ AuthenticationMode.wpa := by
    rcases hmode with h | h
    · exact Nat.le_of_eq h.symm
    · rw [h]
      decide
  obtain ⟨wpa2, rfl⟩ := h
  unfold StaConfig.refusesCiphers
  dsimp only
  rw [if_pos hge, if_pos hge, if_pos hmode, if_pos hmode]

theorem judges_wpa {cfg : SortConfig}
    (hmode : cfg.authMode = AuthenticationMode.wpa ∨ cfg.authMode = AuthenticationMode.wpaPsk)
    {e e' : BssEntry} (h : SameButWpa2 e e') (ssid : List UInt8) (ssidLen : UInt8) :
    cfg.judges ssid ssidLen e' = cfg.judges ssid ssidLen e := by
  have hciphers := refusesCiphers_wpa hmode h
  unfold SortConfig.judges
  rw [hciphers, hciphers]
  obtain ⟨wpa2, rfl⟩ := h
  rfl

/-! ## 4. What hangs on the wrong structure -/

/-- **A WPA2 station with an SSID judges the entry by `WPA.GroupCipher`**: it announces RSN, passes all
other tests, and its WPA2 group cipher is not one of WEP. -/
structure HangsOnWpa (cfg : SortConfig) (ssid : List UInt8) (ssidLen : UInt8) (e : BssEntry) :
    Prop where
  announces : AnnouncesRsn e
  noWps : cfg.enableWps = false
  noWsc : cfg.wscOn = false
  withSsid : ssidLen ≠ 0
  bssType : e.bssType = cfg.bssType
  found : ssidEqual ssid ssidLen e.ssid e.ssidLen = true ∨ cfg.hiddenIncluded e = true
  country : (cfg.dStrict && !e.bHasCountryIE) = false
  rates : cfg.refusesRates e = false
  wpa2 : refusesWpa2 cfg e.ciphers = false
  compared : comparesGroup e.ciphers = true

/-- Such an entry is taken or left as the group cipher of its WPA structure says. -/
theorem HangsOnWpa.judges {cfg : SortConfig} {ssid : List UInt8} {ssidLen : UInt8} {e : BssEntry}
    (hmode : cfg.authMode = AuthenticationMode.wpa2 ∨ cfg.authMode = AuthenticationMode.wpa2Psk)
    (h : HangsOnWpa cfg ssid ssidLen e) :
    cfg.judges ssid ssidLen e =
      if cfg.wepStatus < e.ciphers.wpa.groupCipher then .leave else .take := by
  unfold SortConfig.judges
  rw [if_pos ⟨h.bssType, h.found⟩, refusesCiphers_wpa2 hmode, h.noWps, h.noWsc, h.country, h.rates,
    h.wpa2, h.compared, if_neg h.withSsid]
  simp

/-- Any other entry that announces RSN is judged without a look at the WPA structure. -/
theorem judges_of_not_hangs {cfg : SortConfig} {ssid₀ : List UInt8} {ssidLen : UInt8}
    {e e' : BssEntry}
    (hmode : cfg.authMode = AuthenticationMode.wpa2 ∨ cfg.authMode = AuthenticationMode.wpa2Psk)
    (h : SameButWpa e e') (hann : AnnouncesRsn e) (hno : ¬ HangsOnWpa cfg ssid₀ ssidLen e)
    {ssid : List UInt8} (hssid : cfg.wscOn = true ∨ ssid = ssid₀) :
    cfg.judges ssid ssidLen e' = cfg.judges ssid ssidLen e := by
  have hany := refusesCiphers_anySsid hmode h
  have htrue := refusesCiphers_wpa2 hmode e'
  obtain ⟨hbssid, htype, hequal, hhidden, hcountry, hrates, hwpa2, hcomp⟩ :
      e'.bssid = e.bssid ∧ e'.bssType = e.bssType ∧
      ssidEqual ssid ssidLen e'.ssid e'.ssidLen = ssidEqual ssid ssidLen e.ssid e.ssidLen ∧
      cfg.hiddenIncluded e' = cfg.hiddenIncluded e ∧ e'.bHasCountryIE = e.bHasCountryIE ∧
      cfg.refusesRates e' = cfg.refusesRates e ∧
      refusesWpa2 cfg e'.ciphers = refusesWpa2 cfg e.ciphers ∧
      comparesGroup e'.ciphers = comparesGroup e.ciphers := by
    obtain ⟨wpa, rfl⟩ := h
    exact ⟨rfl, rfl, rfl, rfl, rfl, rfl, rfl, rfl⟩
  unfold SortConfig.judges
  rw [hbssid, htype, hequal, hhidden, hcountry, hrates, hany, htrue, hwpa2, hcomp,
    refusesCiphers_wpa2 hmode e]
  by_cases hfirst : e.bssType = cfg.bssType ∧ (ssidEqual ssid ssidLen e.ssid e.ssidLen = true ∨
      cfg.hiddenIncluded e = true)
  swap
  · rw [if_neg hfirst, if_neg hfirst]
  rw [if_pos hfirst, if_pos hfirst]
  cases hwps : cfg.enableWps with
  | true => rfl
  | false =>
    cases hwsc : cfg.wscOn with
    | true => rfl
    | false =>
      obtain rfl : ssid = ssid₀ := hssid.resolve_left (by rw [hwsc]; decide)
      cases hcountry : cfg.dStrict && !e.bHasCountryIE with
      | true => rfl
      | false =>
        cases hrates : cfg.refusesRates e with
        | true => rfl
        | false =>
          by_cases hlen : ssidLen = 0
          · simp [hlen]
          cases hwpa2 : refusesWpa2 cfg e.ciphers with
          | true => rfl
          | false =>
            cases hcomp : comparesGroup e.ciphers with
            | false => simp
            | true =>
              exact absurd ⟨hann, hwps, hwsc, hlen, hfirst.1, hfirst.2, hcountry, hrates, hwpa2,
                hcomp⟩ hno

/-! ## 5. The choice -/

/-- One entry of a list replaced: what it does to a count. -/
theorem exists_countP_update {α : Type*} (p : α → Bool) (f : Nat → α) {i n : Nat} (hi : i < n) :
    ∃ others, ∀ a, ((List.range n).map (Function.update f i a)).countP p =
      others + if p a then 1 else 0 := by
  induction n with
  | zero => exact absurd hi (Nat.not_lt_zero i)
  | succ n ih =>
    by_cases hin : i = n
    · refine ⟨((List.range n).map f).countP p, fun a => ?_⟩
      have hfront : (List.range n).map (Function.update f i a) = (List.range n).map f :=
        List.map_congr_left fun k hk =>
          Function.update_of_ne (by have := List.mem_range.mp hk; omega) _ _
      rw [List.range_succ, List.map_append, List.countP_append, hfront, List.map_singleton, hin,
        Function.update_self, List.countP_singleton]
    · obtain ⟨others, hothers⟩ := ih (by omega)
      refine ⟨others + if p (f n) then 1 else 0, fun a => ?_⟩
      rw [List.range_succ, List.map_append, List.countP_append, hothers, List.map_singleton,
        Function.update_of_ne (Ne.symm hin), List.countP_singleton]
      omega

/-- Without WSC, the number of access points chosen. -/
theorem bssNr_bssTableSsidSort {cfg : SortConfig} (hoff : cfg.wscOn = false) (allocated : Bool)
    (aux : MlmeAux) {ssidLen : UInt8} (scanTab : ScanTable) (outTab : BssTable) (heap : Heap)
    (hlen : ssidLen ≠ 0) :
    (bssTableSsidSort cfg allocated aux ssidLen scanTab.toBssTable outTab heap).1.bssNr =
      (entries scanTab.toBssTable).countP fun e =>
        decide (cfg.judges aux.ssid ssidLen e ≠ .leave) := by
  obtain ⟨tab, hout, htab⟩ := perm_bssTableSsidSort cfg allocated aux scanTab outTab heap
    (fun h => hlen h.1)
  have hchosen : chosen cfg ssidLen aux.ssid (entries scanTab.toBssTable) =
      (entries scanTab.toBssTable).filter fun e =>
        decide (cfg.judges aux.ssid ssidLen e ≠ .leave) := by
    generalize entries scanTab.toBssTable = es
    have hsame : SameSsid ssidLen aux.ssid aux.ssid := rfl
    have hmarks := (decisions_forall_iff
      (P := fun e => decide (cfg.judges aux.ssid ssidLen e ≠ .leave)) es hsame).mpr
      fun seen e rest _ => by rw [wanted_of_off hoff]
    have hfilter := filter_marks
      (P := fun e => decide (cfg.judges aux.ssid ssidLen e ≠ .leave)) hmarks
    rw [chosen_eq, hfilter, map_fst_decisions]
  rw [hout, ← length_entries, (entries_bssTableSortByRssi allocated tab).1.length_eq, htab,
    hchosen, List.countP_eq_length_filter]

/-- The entry with another group cipher in its WPA structure. -/
def withWpaGroup (e : BssEntry) (group : WepStatus) : BssEntry :=
  { e with ciphers := { e.ciphers with wpa := { e.ciphers.wpa with groupCipher := group } } }

def withWpaGroupAt (scanTab : ScanTable) (i : Nat) (group : WepStatus) : ScanTable where
  bssNr := scanTab.bssNr
  bssOverlapNr := scanTab.bssOverlapNr
  entry := Function.update scanTab.entry i (withWpaGroup (scanTab.entry i) group)
  bssNr_le := scanTab.bssNr_le

theorem HangsOnWpa.withWpaGroup {cfg : SortConfig} {ssid : List UInt8} {ssidLen : UInt8}
    {e : BssEntry} (h : HangsOnWpa cfg ssid ssidLen e) (group : WepStatus) :
    HangsOnWpa cfg ssid ssidLen (SsidSort.withWpaGroup e group) :=
  ⟨h.announces, h.noWps, h.noWsc, h.withSsid, h.bssType, h.found, h.country, h.rates, h.wpa2,
    h.compared⟩

theorem differ_withWpaGroupAt {cfg : SortConfig} {ssid : List UInt8} {ssidLen : UInt8}
    {scanTab : ScanTable} {i : Nat} (h : HangsOnWpa cfg ssid ssidLen (scanTab.entry i))
    (group : WepStatus) : Differ AnnouncesRsn SameButWpa scanTab.toBssTable
      (withWpaGroupAt scanTab i group).toBssTable where
  bssNr := rfl
  announcing := by
    intro k _
    by_cases hk : k = i
    · rw [hk]
      exact ⟨{ (scanTab.entry i).ciphers.wpa with groupCipher := group }, Function.update_self _ _ _⟩
    · exact ⟨(scanTab.entry k).ciphers.wpa, Function.update_of_ne hk _ _⟩
  other := by
    intro k hk
    have hne : k ≠ i := by
      rintro rfl
      exact hk h.announces
    exact Function.update_of_ne hne _ _

/-- **The choice is independent of the other structure**: for a WPA station always, and for a WPA2
station exactly when no entry hangs on it. -/
theorem selection_independent (cfg : SortConfig) (allocated : Bool) (aux : MlmeAux)
    (ssidLen : UInt8) (scanTab : ScanTable) (outTab : BssTable) (heap : Heap) :
    ((cfg.authMode = AuthenticationMode.wpa2 ∨ cfg.authMode = AuthenticationMode.wpa2Psk) →
      ((∀ scanTab' : ScanTable,
          Differ AnnouncesRsn SameButWpa scanTab.toBssTable scanTab'.toBssTable →
          SameSelection SameButWpa
            (bssTableSsidSort cfg allocated aux ssidLen scanTab.toBssTable outTab heap).1
            (bssTableSsidSort cfg allocated aux ssidLen scanTab'.toBssTable outTab heap).1) ↔
        ∀ i, i < scanTab.bssNr → ¬ HangsOnWpa cfg aux.ssid ssidLen (scanTab.entry i))) ∧
    ((cfg.authMode = AuthenticationMode.wpa ∨ cfg.authMode = AuthenticationMode.wpaPsk) →
      ∀ scanTab' : ScanTable,
        Differ AnnouncesWpa SameButWpa2 scanTab.toBssTable scanTab'.toBssTable →
        SameSelection SameButWpa2
          (bssTableSsidSort cfg allocated aux ssidLen scanTab.toBssTable outTab heap).1
          (bssTableSsidSort cfg allocated aux ssidLen scanTab'.toBssTable outTab heap).1) := by
  constructor
  · intro hmode
    constructor
    · -- two group ciphers that are judged differently give choices of different sizes
      intro hall i hi hhang
      have hlow := (hall _ (differ_withWpaGroupAt hhang 0)).1
      have hhigh := (hall _ (differ_withWpaGroupAt hhang (cfg.wepStatus + 1))).1
      rw [← hlow, bssNr_bssTableSsidSort hhang.noWsc allocated aux _ outTab heap hhang.withSsid,
        bssNr_bssTableSsidSort hhang.noWsc allocated aux _ outTab heap hhang.withSsid] at hhigh
      obtain ⟨others, hothers⟩ := exists_countP_update
        (fun e => decide (cfg.judges aux.ssid ssidLen e ≠ .leave)) scanTab.entry hi
      have hcount : ∀ group, (entries (withWpaGroupAt scanTab i group).toBssTable).countP
          (fun e => decide (cfg.judges aux.ssid ssidLen e ≠ .leave)) =
            others + if cfg.wepStatus < group then 0 else 1 := by
        intro group
        have hentries : entries (withWpaGroupAt scanTab i group).toBssTable =
            (List.range scanTab.bssNr).map
              (Function.update scanTab.entry i (withWpaGroup (scanTab.entry i) group)) := rfl
        rw [hentries, hothers, (hhang.withWpaGroup group).judges hmode]
        have hgroup : (withWpaGroup (scanTab.entry i) group).ciphers.wpa.groupCipher = group := rfl
        rw [hgroup]
        by_cases hlt : cfg.wepStatus < group
        · simp [hlt]
        · simp [hlt]
      rw [hcount, hcount, if_pos (Nat.lt_succ_self _), if_neg (Nat.not_lt_zero _)] at hhigh
      omega
    · intro hno scanTab' hdiffer
      refine sameSelection_of_judges (fun _ _ h => h.alike) outTab heap hdiffer.bssNr
        fun i hi => ?_
      by_cases hann : AnnouncesRsn (scanTab.entry i)
      · have hsame := hdiffer.announcing i hann
        exact ⟨hsame, fun ssid hssid => judges_of_not_hangs hmode hsame hann (hno i hi) hssid⟩
      · rw [hdiffer.other i hann]
        exact ⟨⟨(scanTab.entry i).ciphers.wpa, rfl⟩, fun _ _ => rfl⟩
  · intro hmode scanTab' hdiffer
    refine sameSelection_of_judges (fun _ _ h => h.alike) outTab heap hdiffer.bssNr fun i hi => ?_
    by_cases hann : AnnouncesWpa (scanTab.entry i)
    · have hsame := hdiffer.announcing i hann
      exact ⟨hsame, fun ssid _ => judges_wpa hmode hsame ssid ssidLen⟩
    · rw [hdiffer.other i hann]
      exact ⟨⟨(scanTab.entry i).ciphers.wpa2, rfl⟩, fun _ _ => rfl⟩

namespace Example

/-- A station set to WPA2-PSK with AES. -/
def wpa2Station : SortConfig where
  authMode := AuthenticationMode.wpa2Psk
  wepStatus := WepStatus.encryption3Enabled

/-- An access point with AES in its RSN element, and the given group cipher in its WPA element. -/
def mixedAp (group : WepStatus) : BssEntry where
  bssid := List.replicate 6 1
  bssType := bssInfra
  ssid := List.replicate 3 97 ++ List.replicate 29 0
  ssidLen := 3
  rsnIE := { ieLen := 22 }
  wpaIE := { ieLen := 24 }
  ciphers :=
    { authMode := AuthenticationMode.wpa2Psk
      authModeAux := AuthenticationMode.wpaPsk
      wepStatus := WepStatus.encryption3Enabled
      wpa := { pairCipher := WepStatus.encryption2Enabled, groupCipher := group, bMixMode := true }
      wpa2 :=
        { pairCipher := WepStatus.encryption3Enabled
          groupCipher := WepStatus.encryption3Enabled } }

def mixedScan (group : WepStatus) : ScanTable := scanOf (fun _ => mixedAp group) 1 (by decide)

/-- With TKIP for the groups of WPA it is chosen, with WEP it is not. -/
theorem not_independent_mixedScan :
    ¬ ∀ (cfg : SortConfig) (allocated : Bool) (aux : MlmeAux) (ssidLen : UInt8)
      (scanTab scanTab' : ScanTable) (outTab : BssTable) (heap : Heap),
      cfg.authMode = AuthenticationMode.wpa2Psk →
      Differ AnnouncesRsn SameButWpa scanTab.toBssTable scanTab'.toBssTable →
      SameSelection SameButWpa
        (bssTableSsidSort cfg allocated aux ssidLen scanTab.toBssTable outTab heap).1
        (bssTableSsidSort cfg allocated aux ssidLen scanTab'.toBssTable outTab heap).1 := by
  intro hall
  have hnr := (hall wpa2Station true wantedSsid 3 (mixedScan WepStatus.encryption2Enabled)
    (mixedScan WepStatus.groupWep104Enabled) emptyTable (fun _ => []) rfl
    ⟨rfl, fun _ _ => ⟨(mixedAp WepStatus.groupWep104Enabled).ciphers.wpa, rfl⟩,
      fun _ hno => absurd (show (22 : UInt8) ≠ 0 by decide) hno⟩).1
  revert hnr
  decide +kernel

/-- The scan table of the example has an entry that hangs on the other structure. -/
theorem selection_independent_mixedScan :
    (∀ scanTab' : ScanTable,
        Differ AnnouncesRsn SameButWpa (mixedScan WepStatus.encryption2Enabled).toBssTable
          scanTab'.toBssTable →
        SameSelection SameButWpa
          (bssTableSsidSort wpa2Station true wantedSsid 3
            (mixedScan WepStatus.encryption2Enabled).toBssTable emptyTable fun _ => []).1
          (bssTableSsidSort wpa2Station true wantedSsid 3 scanTab'.toBssTable emptyTable
            fun _ => []).1) ↔
      ∀ i, i < 1 → ¬ HangsOnWpa wpa2Station wantedSsid.ssid 3
        (mixedAp WepStatus.encryption2Enabled) :=
  (selection_independent wpa2Station true wantedSsid 3 (mixedScan WepStatus.encryption2Enabled)
    emptyTable fun _ => []).1 (by decide)

end Example

end Mt7601.Mlme.SsidSort
