/-
# Signal averages

`Update_Rssi_Sample` of `common/cmm_data.c`: the averages of RSSI and SNR of a peer, over the frames
received from it. Each is kept eightfold in a `SHORT`, so that an average never leaves the range of
its values. Whether a sample is fresh is asked of the first antenna only, and for all of them:
`averages_iff` says when that takes an average out of its range.
-/
import Mt7601.Lib.Run
import Mt7601.Lib.Sizes
import Mt7601.Lib.Smoothing

namespace Mt7601.Data

/-! ## 1. What a frame reports -/

/-- A `CHAR`, a `SHORT` and a `UCHAR` of a number. -/
def char (x : Int) : Int := x.bmod 256
def short (x : Int) : Int := x.bmod 65536
def uchar (x : Int) : Int := x % 256

/-- `SNR_FORMULA1` and so on -/
inductive SnrFormula
  | formula1
  | formula2
  | formula3
  deriving DecidableEq

/-- `RTMP_ADAPTER`, as far as the conversions look at it. -/
structure SignalSettings where
  isMt7601 : Bool := true
  channel : UInt8 := 1
  bLNAGain : Int := 0
  aLNAGain0 : Int := 0
  aLNAGain1 : Int := 0
  aLNAGain2 : Int := 0
  bgRssiOffset : Fin 3 → Int := fun _ => 0
  aRssiOffset : Fin 3 → Int := fun _ => 0
  snrFormula : SnrFormula := .formula2

/-- `RXWI_STRUC`, as far as the averages look at it; `bw` is set with 40 MHz. -/
structure RxWiSignal where
  bw : Bool := false
  phyMode : Fin 4
  rssi0 : UInt8
  rssi1 : UInt8 := 0
  rssi2 : UInt8 := 0
  snr0 : UInt8 := 0
  snr1 : UInt8 := 0
  snr2 : UInt8 := 0

/-- `MODE_CCK` -/
def modeCck : Fin 4 := 0

/-- `GET_LNA_GAIN` -/
def getLnaGain (pAd : SignalSettings) : Int :=
  if pAd.channel ≤ 14 then pAd.bLNAGain
  else if pAd.channel ≤ 64 then pAd.aLNAGain0
  else if pAd.channel ≤ 128 then pAd.aLNAGain1
  else pAd.aLNAGain2

/-- `ConvertToRssi` -/
def convertToRssi (pAd : SignalSettings) (rssi : Int) (rssiIdx : Fin 3) (antSel : UInt8) (bw : Bool) :
    Int :=
  if rssi = 0 then -99
  else
    let lnaGain := uchar (getLnaGain pAd)
    let rssiOffset := uchar
      (if pAd.channel > 14 then pAd.aRssiOffset rssiIdx else pAd.bgRssiOffset rssiIdx)
    if pAd.isMt7601 then
      let lnaTable : Int × Int × Int :=
        if antSel >>> 7 = 0 then if bw then (0, 16, 34) else (-2, 15, 33)
        else if bw then (-2, 16, 34) else (-2, 15, 33)
      let lna := (rssi >>> (6 : Nat)) % 4
      let lna := if lna = 3 then lnaTable.2.2 else if lna = 2 then lnaTable.2.1 else lnaTable.1
      char (8 - lna - rssi % 64 - lnaGain - rssiOffset)
    else char (-12 - rssiOffset - lnaGain - rssi)

/-- `ConvertToSnr` -/
def convertToSnr (pAd : SignalSettings) (snr : UInt8) : Int :=
  match pAd.snrFormula with
  | .formula2 => char (((snr.toNat : Int) * 3 + 8) >>> (4 : Nat))
  | .formula3 => char ((snr.toNat : Int) * 3 / 16)
  | .formula1 => char (((0xeb - (snr.toNat : Int)) * 3).tdiv 16)

/-- `get_pkt_rssi_by_rxwi`; on a MT7601 the first antenna reports elsewhere. -/
def getPktRssi (pAd : SignalSettings) (pRxWI : RxWiSignal) : Fin 3 → Int
  | 0 => char (if pAd.isMt7601 then pRxWI.snr2 else pRxWI.rssi0).toNat
  | 1 => char pRxWI.rssi1.toNat
  | 2 => char pRxWI.rssi2.toNat

/-- `get_pkt_snr_by_rxwi`, of the two that are averaged -/
def getPktSnr (pAd : SignalSettings) (pRxWI : RxWiSignal) : Fin 2 → UInt8
  | 0 => pRxWI.snr0
  | 1 => if pAd.isMt7601 then 0 else pRxWI.snr1

/-! ## 2. `Update_Rssi_Sample` -/

/-- `LastRssi0`, `AvgRssi0` and `AvgRssi0X8`, or those of another antenna or of the SNR. -/
structure Average where
  last : Int := 0
  avg : Int := 0
  avgX8 : Int := 0
  deriving DecidableEq

/-- `RSSI_SAMPLE`, as far as it is averaged. -/
structure RssiSample where
  rssi0 : Average := {}
  rssi1 : Average := {}
  rssi2 : Average := {}
  snr0 : Average := {}
  snr1 : Average := {}
  deriving DecidableEq

/-- `bInitial` -/
def RssiSample.Initial (pRssi : RssiSample) : Prop :=
  pRssi.rssi0.avg = 0 ∧ pRssi.rssi0.avgX8 = 0 ∧ pRssi.rssi0.last = 0

instance (pRssi : RssiSample) : Decidable pRssi.Initial := inferInstanceAs (Decidable (_ ∧ _))

/-- What is stored eightfold, before it is cut to a `SHORT`. -/
def Average.sum (a : Average) (bInitial : Bool) (last : Int) : Int :=
  if bInitial then last * 8 else a.avgX8 - a.avg + last

/-- A value that was reported. -/
def Average.report (a : Average) (bInitial : Bool) (last : Int) : Average :=
  let avgX8 := short (a.sum bInitial last)
  { last := last, avgX8 := avgX8, avg := char (avgX8 >>> (3 : Nat)) }

/-- A frame, with the settings it is received with. -/
structure RxSignal where
  pAd : SignalSettings := {}
  pRxWI : RxWiSignal

/-- The averages, by what they are of. -/
inductive Antenna
  | rssi (i : Fin 3)
  | snr (i : Fin 2)
  deriving DecidableEq

/-- What an antenna reports of a frame: an RSSI or SNR of zero is none, and the SNR is not taken of a
CCK frame. -/
def RxSignal.reported (f : RxSignal) : Antenna → Option Int
  | .rssi i =>
    let rssi := getPktRssi f.pAd f.pRxWI i
    if rssi ≠ 0 then some (convertToRssi f.pAd rssi i f.pRxWI.snr1 f.pRxWI.bw) else none
  | .snr i =>
    let snr := getPktSnr f.pAd f.pRxWI i
    if snr ≠ 0 ∧ f.pRxWI.phyMode ≠ modeCck then some (convertToSnr f.pAd snr) else none

/-- An average, if its antenna reports. -/
def Average.update (a : Average) (bInitial : Bool) : Option Int → Average
  | some last => a.report bInitial last
  | none => a

/-- `Update_Rssi_Sample` -/
def updateRssiSample (pRssi : RssiSample) (f : RxSignal) : RssiSample :=
  let bInitial : Bool := pRssi.Initial
  { rssi0 := pRssi.rssi0.update bInitial (f.reported (.rssi 0))
    snr0 := pRssi.snr0.update bInitial (f.reported (.snr 0))
    rssi1 := pRssi.rssi1.update bInitial (f.reported (.rssi 1))
    snr1 := pRssi.snr1.update bInitial (f.reported (.snr 1))
    rssi2 := pRssi.rssi2.update bInitial (f.reported (.rssi 2)) }

def RssiSample.average (pRssi : RssiSample) : Antenna → Average
  | .rssi 0 => pRssi.rssi0
  | .rssi 1 => pRssi.rssi1
  | .rssi 2 => pRssi.rssi2
  | .snr 0 => pRssi.snr0
  | .snr 1 => pRssi.snr1

/-- Each antenna is treated alike. -/
theorem updateRssiSample_average (pRssi : RssiSample) (f : RxSignal) (ant : Antenna) :
    (updateRssiSample pRssi f).average ant =
      (pRssi.average ant).update pRssi.Initial (f.reported ant) := by
  have hrssi : ∀ i : Fin 3, i = 0 ∨ i = 1 ∨ i = 2 := by decide
  have hsnr : ∀ i : Fin 2, i = 0 ∨ i = 1 := by decide
  cases ant with
  | rssi i =>
    rcases hrssi i with rfl | rfl | rfl <;> dsimp only [updateRssiSample, RssiSample.average]
  | snr i => rcases hsnr i with rfl | rfl <;> dsimp only [updateRssiSample, RssiSample.average]

/-! ## 3. The range of an average -/

/-- The frames a sample has been given, by what they reported, and whether a sum has ever been cut. -/
structure Watched where
  pRssi : RssiSample := {}
  values : Antenna → List Int := fun _ => []
  overflow : Bool := false

/-- Some antenna's sum does not fit a `SHORT`. -/
def RssiSample.cut (pRssi : RssiSample) (f : RxSignal) : Bool :=
  [Antenna.rssi 0, .rssi 1, .rssi 2, .snr 0, .snr 1].any fun ant =>
    match f.reported ant with
    | some v =>
      short ((pRssi.average ant).sum pRssi.Initial v) ≠ (pRssi.average ant).sum pRssi.Initial v
    | none => false

/-- A frame, and what it reported. -/
def watch (w : Watched) (f : RxSignal) : Watched where
  pRssi := updateRssiSample w.pRssi f
  values := fun ant => (f.reported ant).toList ++ w.values ant
  overflow := w.overflow || w.pRssi.cut f

/-- **Each average lies between the least and the greatest value that its antenna has reported**, and
no sum has been cut. -/
def Watched.Good (w : Watched) : Prop :=
  w.overflow = false ∧ ∀ ant, w.values ant ≠ [] →
    ∃ lo ∈ w.values ant, ∃ hi ∈ w.values ant,
      lo ≤ (w.pRssi.average ant).avg ∧ (w.pRssi.average ant).avg ≤ hi

/-- **The first value of an antenna meets a fresh sample**, or it is one that division does not
change. -/
def FirstFine (w : Watched) (f : RxSignal) : Prop :=
  ∀ ant, ∀ v ∈ f.reported ant, w.values ant = [] → w.pRssi.Initial ∨ v = 0 ∨ v = -1

/-- What keeps the average of an antenna in its range. -/
structure Average.Inv (a : Average) (values : List Int) : Prop where
  avg : a.avg = a.avgX8 / 8
  range : Smoothing.Within 8 (-128) 127 a.avgX8
  fresh : values = [] → a.avgX8 = 0
  between : values ≠ [] → ∃ lo ∈ values, ∃ hi ∈ values, Smoothing.Within 8 lo hi a.avgX8

theorem char_range (x : Int) : -128 ≤ char x ∧ char x ≤ 127 := by
  unfold char
  rw [Int.bmod]
  split <;> omega

theorem char_eq {x : Int} (hlo : -128 ≤ x) (hhi : x ≤ 127) : char x = x := by
  unfold char
  rw [Int.bmod]
  split <;> omega

theorem short_eq {x : Int} (hlo : -32768 ≤ x) (hhi : x ≤ 32767) : short x = x := by
  unfold short
  rw [Int.bmod]
  split <;> omega

theorem convertToRssi_range (pAd : SignalSettings) (rssi : Int) (rssiIdx : Fin 3) (antSel : UInt8)
    (bw : Bool) :
    -128 ≤ convertToRssi pAd rssi rssiIdx antSel bw ∧
      convertToRssi pAd rssi rssiIdx antSel bw ≤ 127 := by
  unfold convertToRssi
  by_cases hrssi : rssi = 0
  · rw [if_pos hrssi]
    omega
  · rw [if_neg hrssi]
    dsimp only
    by_cases hmt : pAd.isMt7601 = true
    · rw [if_pos hmt]
      exact char_range _
    · rw [if_neg hmt]
      exact char_range _

theorem convertToSnr_range (pAd : SignalSettings) (snr : UInt8) :
    -128 ≤ convertToSnr pAd snr ∧ convertToSnr pAd snr ≤ 127 := by
  unfold convertToSnr
  cases pAd.snrFormula with
  | formula1 => exact char_range _
  | formula2 => exact char_range _
  | formula3 => exact char_range _

theorem RxSignal.reported_range (f : RxSignal) {ant : Antenna} {v : Int}
    (h : f.reported ant = some v) : -128 ≤ v ∧ v ≤ 127 := by
  cases ant with
  | rssi i =>
    unfold reported at h
    dsimp only at h
    split at h
    · cases h
      exact convertToRssi_range ..
    · exact nomatch h
  | snr i =>
    unfold reported at h
    dsimp only at h
    split at h
    · cases h
      exact convertToSnr_range ..
    · exact nomatch h

section

variable {a : Average} {values : List Int} {bInitial : Bool} {v : Int}

theorem Average.sum_eq (a : Average) (hv : a.avg = a.avgX8 / 8) :
    a.sum bInitial v = if bInitial then 8 * v else Smoothing.next 8 a.avgX8 v := by
  unfold sum Smoothing.next
  split
  · exact Int.mul_comm v 8
  · rw [hv]

/-- Any sum is far from the ends of a `SHORT`. -/
theorem Average.Inv.sum_within (h : a.Inv values) (hlo : -128 ≤ v) (hhi : v ≤ 127) :
    Smoothing.Within 8 (-128) 127 (a.sum bInitial v) := by
  rw [a.sum_eq h.avg]
  split
  · exact Smoothing.within_first (by decide) hlo hhi
  · exact Smoothing.within_next (by decide) h.range hlo hhi

theorem Average.Inv.short_sum (h : a.Inv values) (hlo : -128 ≤ v) (hhi : v ≤ 127) :
    short (a.sum bInitial v) = a.sum bInitial v := by
  have hwithin : Smoothing.Within 8 (-128) 127 (a.sum bInitial v) := h.sum_within hlo hhi
  obtain ⟨hmin, hmax⟩ := hwithin
  exact short_eq (by omega) (by omega)

theorem Average.Inv.report (h : a.Inv values) (hlo : -128 ≤ v) (hhi : v ≤ 127) :
    (a.report bInitial v).avgX8 = a.sum bInitial v ∧
      (a.report bInitial v).avg = a.sum bInitial v / 8 := by
  have hwithin : Smoothing.Within 8 (-128) 127 (a.sum bInitial v) := h.sum_within hlo hhi
  obtain ⟨hmin, hmax⟩ := Smoothing.Within.mean (by decide) hwithin
  unfold Average.report
  rw [h.short_sum hlo hhi]
  refine ⟨rfl, ?_⟩
  change char (a.sum bInitial v >>> (3 : Nat)) = _
  rw [Int.shiftRight_eq_div_pow]
  exact char_eq hmin hmax

/-- **One more value keeps the average in its range**, unless it is the first one and the sample is
taken to be an old one. -/
theorem Average.Inv.step (h : a.Inv values) (hlo : -128 ≤ v) (hhi : v ≤ 127)
    (hfirst : values = [] → bInitial = true ∨ v = 0 ∨ v = -1) :
    (a.report bInitial v).Inv (v :: values) := by
  obtain ⟨hX8, havg⟩ : (a.report bInitial v).avgX8 = a.sum bInitial v ∧
      (a.report bInitial v).avg = a.sum bInitial v / 8 := h.report hlo hhi
  refine ⟨by rw [hX8, havg], by rw [hX8]; exact h.sum_within hlo hhi, nofun, fun _ => ?_⟩
  rw [hX8, a.sum_eq h.avg]
  cases bInitial with
  | true =>
    exact ⟨v, List.mem_cons_self .., v, List.mem_cons_self ..,
      Smoothing.within_first (by decide) le_rfl le_rfl⟩
  | false =>
    rw [if_neg Bool.false_ne_true]
    by_cases hnil : values = []
    · have hv : v = 0 ∨ v = -1 := (hfirst hnil).resolve_left Bool.false_ne_true
      refine ⟨v, List.mem_cons_self .., v, List.mem_cons_self .., ?_⟩
      unfold Smoothing.Within Smoothing.next
      rw [h.fresh hnil]
      omega
    · obtain ⟨lo, hlo', hi, hhi', hwithin⟩ := h.between hnil
      refine ⟨min lo v, ?_, max hi v, ?_, ?_⟩
      · rcases min_choice lo v with hm | hm <;> rw [hm]
        · exact List.mem_cons_of_mem _ hlo'
        · exact List.mem_cons_self ..
      · rcases max_choice hi v with hm | hm <;> rw [hm]
        · exact List.mem_cons_of_mem _ hhi'
        · exact List.mem_cons_self ..
      · exact Smoothing.within_next (by decide)
          (hwithin.mono (by decide) (min_le_left _ _) (le_max_left _ _)) (min_le_right _ _)
          (le_max_right _ _)

/-- A first value that meets an old sample leaves an eighth of itself. -/
theorem Average.Inv.step_first (h : a.Inv []) (hlo : -128 ≤ v) (hhi : v ≤ 127) (h0 : v ≠ 0)
    (h1 : v ≠ -1) : (a.report false v).avg ≠ v := by
  rw [(h.report hlo hhi).2, a.sum_eq h.avg, if_neg Bool.false_ne_true, Smoothing.next, h.fresh rfl]
  omega

end

/-! ## 4. Any number of frames -/

/-- Every average is in its range, as far as its antenna has reported. -/
structure Watched.Inv (w : Watched) : Prop where
  overflow : w.overflow = false
  average : ∀ ant, (w.pRssi.average ant).Inv (w.values ant)

theorem inv_fresh : Watched.Inv {} where
  overflow := rfl
  average := by
    have hnone : Average.Inv {} [] := ⟨rfl, ⟨by decide, by decide⟩, fun _ => rfl, fun h => absurd rfl h⟩
    have hrssi : ∀ i : Fin 3, i = 0 ∨ i = 1 ∨ i = 2 := by decide
    have hsnr : ∀ i : Fin 2, i = 0 ∨ i = 1 := by decide
    intro ant
    cases ant with
    | rssi i => rcases hrssi i with rfl | rfl | rfl <;> exact hnone
    | snr i => rcases hsnr i with rfl | rfl <;> exact hnone

theorem Watched.Inv.good {w : Watched} (h : w.Inv) : w.Good := by
  refine ⟨h.overflow, fun ant hne => ?_⟩
  obtain ⟨lo, hlo, hi, hhi, hwithin⟩ := (h.average ant).between hne
  obtain ⟨hmin, hmax⟩ := Smoothing.Within.mean (by decide) hwithin
  rw [(h.average ant).avg]
  exact ⟨lo, hlo, hi, hhi, hmin, hmax⟩

/-- No sum is ever cut. -/
theorem Watched.Inv.cut {w : Watched} (h : w.Inv) (f : RxSignal) : w.pRssi.cut f = false := by
  unfold RssiSample.cut
  rw [List.any_eq_false]
  intro ant _
  cases hv : f.reported ant with
  | none => exact Bool.false_ne_true
  | some v =>
    obtain ⟨hlo, hhi⟩ := f.reported_range hv
    rw [decide_eq_true_eq, not_not]
    exact (h.average ant).short_sum hlo hhi

theorem Watched.Inv.step {w : Watched} (h : w.Inv) (f : RxSignal) (hok : FirstFine w f) :
    (watch w f).Inv := by
  refine ⟨?_, fun ant => ?_⟩
  · change (w.overflow || w.pRssi.cut f) = false
    rw [h.overflow, h.cut f, Bool.or_false]
  · change ((updateRssiSample w.pRssi f).average ant).Inv ((f.reported ant).toList ++ w.values ant)
    rw [updateRssiSample_average]
    cases hv : f.reported ant with
    | none => exact h.average ant
    | some v =>
      obtain ⟨hlo, hhi⟩ := f.reported_range hv
      refine (h.average ant).step hlo hhi fun hnil => ?_
      rcases hok ant v hv hnil with hinitial | hv | hv
      · exact Or.inl (decide_eq_true hinitial)
      · exact Or.inr (Or.inl hv)
      · exact Or.inr (Or.inr hv)

/-- A first value that is not fine is the only one its average is to be between. -/
theorem Watched.Inv.not_good {w : Watched} (h : w.Inv) (f : RxSignal) (hno : ¬ FirstFine w f) :
    ¬ (watch w f).Good := by
  unfold FirstFine at hno
  push Not at hno
  obtain ⟨ant, v, hv, hnil, hinitial, h0, h1⟩ := hno
  rintro ⟨-, hbetween⟩
  obtain ⟨hlo, hhi⟩ := f.reported_range hv
  have hinv := h.average ant
  rw [hnil] at hinv
  have hvalues : (watch w f).values ant = [v] := by
    change (f.reported ant).toList ++ w.values ant = [v]
    rw [show f.reported ant = some v from hv, hnil]
    rfl
  have havg : (watch w f).pRssi.average ant = (w.pRssi.average ant).report false v := by
    change (updateRssiSample w.pRssi f).average ant = _
    rw [updateRssiSample_average, show f.reported ant = some v from hv,
      decide_eq_false hinitial]
    rfl
  obtain ⟨lo, hlo', hi, hhi', hmin, hmax⟩ := hbetween ant (by rw [hvalues]; exact List.cons_ne_nil _ _)
  rw [hvalues, List.mem_singleton] at hlo' hhi'
  rw [havg] at hmin hmax
  exact hinv.step_first hlo hhi h0 h1 (by omega)

/-- **The averages of a fresh sample stay in the range of their values, over any number of frames,
exactly if the first value of each antenna meets a fresh sample** or is 0 or -1. No sum is ever cut
to a `SHORT`. -/
theorem averages_iff (frames : List RxSignal) :
    (∀ done rest, frames = done ++ rest → (Run.final watch {} done).Good) ↔
      Run.StepsMeet watch FirstFine {} frames :=
  Run.always_iff Watched.Inv Watched.Good (fun _ h => h.good) (fun _ f h hok => h.step f hok)
    (fun _ f h hno => h.not_good f hno) inv_fresh

namespace Example

/-- A CCK frame, whose SNR is not taken, and an HT frame behind it. -/
def cckSignal : RxSignal := { pRxWI := { phyMode := modeCck, rssi0 := 0, snr0 := 64, snr2 := 32 } }
def htSignal : RxSignal := { pRxWI := { phyMode := 2, rssi0 := 0, snr0 := 64, snr2 := 32 } }

end Example

open Example in
/-- The only SNR reported is 12, and the average of it is 1. -/
theorem not_good_snr : ¬ (Run.final watch {} [cckSignal, htSignal]).Good := by
  have hvalues : (Run.final watch {} [cckSignal, htSignal]).values (.snr 0) = [12] := by decide
  have havg : ((Run.final watch {} [cckSignal, htSignal]).pRssi.average (.snr 0)).avg = 1 := by
    decide
  rintro ⟨-, hbetween⟩
  obtain ⟨lo, hlo, hi, hhi, hmin, hmax⟩ := hbetween (.snr 0) (by rw [hvalues]; decide)
  rw [hvalues, List.mem_singleton] at hlo
  rw [havg] at hmin
  omega

end Mt7601.Data
