/-
# The window of a recipient session

The size `BARecSessionAdd` stores and the size `PeerAddBAReqAction` answers with are computed in two
places from the same two numbers. They agree for all of them; but where the smaller of the two is
zero, both become 64, whatever the limit is.
-/
import Mt7601.Ba.Originator

namespace Mt7601.Ba

/-! ## 1. The two computations -/

/-- The entry that `BARecSessionAdd` fills in. -/
def pBAEntry (ad : Adapter) (wcid : Nat) (tid : Fin 16) : Option Nat :=
  let idx := ad.baRecWcidArray wcid tid
  if idx = 0 then (baTableAllocRecEntry ad idx).2.1 else some idx

/-- What both make of the requested size and the limit. -/
def grantedWin (bufSize : Fin 1024) (rxBaWinLimit : UInt8) : UInt8 :=
  let baWinSize := min (UInt8.ofNat bufSize) rxBaWinLimit
  if baWinSize = 0 then 64 else baWinSize

/-- **The condition.** The octet that is left of the requested size is not zero, and neither is the
limit; or the limit allows 64. -/
def WinFits (bufSize : Fin 1024) (rxBaWinLimit : UInt8) : Prop :=
  bufSize.val % 256 ≠ 0 ∧ rxBaWinLimit ≠ 0 ∨ 64 ≤ rxBaWinLimit

theorem grantedWin_pos (bufSize : Fin 1024) (limit : UInt8) :
    1 ≤ (grantedWin bufSize limit).toNat := by
  unfold grantedWin
  by_cases hzero : min (UInt8.ofNat bufSize) limit = 0
  · simp [hzero]
  · simp only [hzero, if_false]
    have hne : (min (UInt8.ofNat bufSize) limit).toNat ≠ 0 := by
      intro h
      exact hzero (UInt8.toNat_inj.mp h)
    omega

/-- The smaller of the two, in numbers. -/
theorem toNat_min_bufSize (bufSize : Fin 1024) (limit : UInt8) :
    (min (UInt8.ofNat bufSize) limit).toNat = min (bufSize.val % 256) limit.toNat := by
  have hval : (UInt8.ofNat bufSize).toNat = bufSize.val % 256 := UInt8.toNat_ofNat'
  rw [← hval]
  by_cases hle : UInt8.ofNat bufSize ≤ limit
  · rw [show min (UInt8.ofNat bufSize) limit = UInt8.ofNat bufSize from if_pos hle]
    exact (Nat.min_eq_left (UInt8.le_iff_toNat_le.mp hle)).symm
  · rw [show min (UInt8.ofNat bufSize) limit = limit from if_neg hle]
    exact (Nat.min_eq_right (Nat.le_of_not_le fun h => hle (UInt8.le_iff_toNat_le.mpr h))).symm

theorem grantedWin_le_iff (bufSize : Fin 1024) (limit : UInt8) :
    (grantedWin bufSize limit).toNat ≤ limit.toNat ↔ WinFits bufSize limit := by
  have hmin := toNat_min_bufSize bufSize limit
  have hlimit : limit ≠ 0 ↔ limit.toNat ≠ 0 := not_congr UInt8.toNat_inj.symm
  have h64 : (64 : UInt8) ≤ limit ↔ 64 ≤ limit.toNat := UInt8.le_iff_toNat_le
  unfold grantedWin WinFits
  rw [hlimit, h64]
  by_cases hzero : min (UInt8.ofNat bufSize) limit = 0
  · have h0 : min (bufSize.val % 256) limit.toNat = 0 := by
      rw [← hmin, hzero]
      rfl
    have hsixty : (64 : UInt8).toNat = 64 := rfl
    simp only [hzero, if_true, hsixty]
    omega
  · have hne : min (bufSize.val % 256) limit.toNat ≠ 0 := by
      intro h
      exact hzero (UInt8.toNat_inj.mp (hmin.trans h))
    simp only [hzero, if_false, hmin]
    omega

/-! ## 2. What is stored -/

theorem baWinSize_baRecSessionAdd {ad ad' : Adapter} {wcid i : Nat} {limit : UInt8}
    {frame : FrameAddbaReq} (hentry : pBAEntry ad wcid frame.tid = some i)
    (hadd : baRecSessionAdd ad wcid limit frame = (ad', true)) :
    (ad'.baRecEntry i).baWinSize = grantedWin frame.bufSize limit := by
  unfold pBAEntry at hentry
  unfold baRecSessionAdd at hadd
  by_cases hidx : ad.baRecWcidArray wcid frame.tid = 0
  · simp only [hidx, if_true] at hentry hadd
    rcases halloc : baTableAllocRecEntry ad 0 with ⟨ad₁, found, idx₁⟩
    rw [halloc] at hentry hadd
    obtain rfl : found = some i := hentry
    simp only [Prod.mk.injEq, and_true] at hadd
    rw [← hadd]
    simp [Adapter.setWcidArray, Adapter.modifyEntry, grantedWin]
  · simp only [hidx, if_false] at hentry hadd
    obtain rfl := Option.some.inj hentry
    simp only [Prod.mk.injEq, and_true] at hadd
    rw [← hadd]
    simp [Adapter.setWcidArray, Adapter.modifyEntry, grantedWin]

/-- The size in the response. -/
theorem bufSize_peerAddBaReqAction {tb tb' : SessionTables} {cfg : CommonCfg} {pMacEntry : MacEntry}
    {wcid : Nat} {msg : AddbaReqMsg} {rsp : AddbaRspOut}
    (h : peerAddBaReqAction tb cfg pMacEntry wcid msg = (tb', some rsp)) :
    rsp.bufSize = (grantedWin msg.frame.bufSize cfg.rxBaWinLimit).toNat := by
  unfold peerAddBaReqAction at h
  by_cases hwcid : maxLenOfMacTable ≤ wcid
  · rw [if_pos hwcid] at h
    exact absurd (congrArg Prod.snd h) (Option.some_ne_none _).symm
  · rw [if_neg hwcid] at h
    have hrsp := congrArg AddbaRspOut.bufSize (Option.some.inj (congrArg Prod.snd h))
    rw [← hrsp, grantedWin]
    by_cases hzero : min (UInt8.ofNat msg.frame.bufSize) cfg.rxBaWinLimit = 0
    · simp [hzero]
    · have hne : (min (UInt8.ofNat msg.frame.bufSize) cfg.rxBaWinLimit).toNat ≠ 0 :=
        fun h0 => hzero (UInt8.toNat_inj.mp h0)
      simp [hzero, hne]

/-- A request that is accepted has added a session. -/
theorem recSessionAdd_of_accepted {tb tb' : SessionTables} {cfg : CommonCfg} {pMacEntry : MacEntry}
    {wcid : Nat} {msg : AddbaReqMsg} {rsp : AddbaRspOut}
    (h : peerAddBaReqAction tb cfg pMacEntry wcid msg = (tb', some rsp))
    (haccept : rsp.statusCode = 0) :
    baRecSessionAdd tb.ad wcid cfg.rxBaWinLimit msg.frame = (tb'.ad, true) := by
  unfold peerAddBaReqAction at h
  by_cases hwcid : maxLenOfMacTable ≤ wcid
  · rw [if_pos hwcid] at h
    exact absurd (congrArg Prod.snd h) (Option.some_ne_none _).symm
  rw [if_neg hwcid] at h
  have htb := congrArg Prod.fst h
  have hstatus := congrArg AddbaRspOut.statusCode (Option.some.inj (congrArg Prod.snd h))
  rw [haccept] at hstatus
  unfold recSessionAdd at htb hstatus
  cases hsane : peerAddBaReqActionSanity msg with
  | false => simp [hsane] at hstatus
  | true =>
    cases hpeer : !cfg.bBADecline && pMacEntry.isHtSta with
    | false => simp [hsane, hpeer] at hstatus
    | true =>
      rcases hadd : baRecSessionAdd tb.ad wcid cfg.rxBaWinLimit msg.frame with ⟨ad, done⟩
      cases done with
      | false => simp [hsane, hpeer, hadd] at hstatus
      | true =>
        simp only [hsane, hpeer, hadd, if_true] at htb
        rw [← htb]

/-! ## 3. The two agree, and the limit -/

/-- **The window of a session that is accepted.** What is stored is what is advertised, at least 1;
and it keeps to the limit exactly on the condition. -/
theorem window_iff {tb tb' : SessionTables} {cfg : CommonCfg} {pMacEntry : MacEntry} {wcid i : Nat}
    {msg : AddbaReqMsg} {rsp : AddbaRspOut}
    (h : peerAddBaReqAction tb cfg pMacEntry wcid msg = (tb', some rsp))
    (haccept : rsp.statusCode = 0) (hentry : pBAEntry tb.ad wcid msg.frame.tid = some i) :
    ((tb'.ad.baRecEntry i).baWinSize.toNat = rsp.bufSize ∧
        1 ≤ (tb'.ad.baRecEntry i).baWinSize.toNat ∧
        (tb'.ad.baRecEntry i).baWinSize.toNat ≤ cfg.rxBaWinLimit.toNat) ↔
      WinFits msg.frame.bufSize cfg.rxBaWinLimit := by
  have hstored := baWinSize_baRecSessionAdd hentry (recSessionAdd_of_accepted h haccept)
  rw [hstored, bufSize_peerAddBaReqAction h, ← grantedWin_le_iff]
  exact ⟨fun hall => hall.2.2, fun hle => ⟨rfl, grantedWin_pos _ _, hle⟩⟩

namespace Example

def limitOf (rxBaWinLimit : UInt8) : CommonCfg where
  autoBA := true
  bBADecline := false
  rxBaWinLimit := rxBaWinLimit
  tgnWifiOn := false

def htStation : MacEntry where
  isHtSta := true
  fixedTxModeHt := false
  ralinkChipset := false
  maxRAmpduFactor := 3
  txSeq := fun _ => 0

def requesting (bufSize : Fin 1024) : AddbaReqMsg where
  msgLen := sizeofFrameAddbaReq
  baPolicy := true
  frame := ⟨0, bufSize, 0⟩

/-- A request without a preference gets 64, where the limit is 16. -/
theorem not_window_noPreference :
    ¬ ∀ (tb tb' : SessionTables) (cfg : CommonCfg) (pMacEntry : MacEntry) (wcid i : Nat)
      (msg : AddbaReqMsg) (rsp : AddbaRspOut),
      peerAddBaReqAction tb cfg pMacEntry wcid msg = (tb', some rsp) → rsp.statusCode = 0 →
      pBAEntry tb.ad wcid msg.frame.tid = some i →
      (tb'.ad.baRecEntry i).baWinSize.toNat = rsp.bufSize ∧
        1 ≤ (tb'.ad.baRecEntry i).baWinSize.toNat ∧
        (tb'.ad.baRecEntry i).baWinSize.toNat ≤ cfg.rxBaWinLimit.toNat := by
  intro hall
  have hrsp : (peerAddBaReqAction (sessionTablesInit 0) (limitOf 16) htStation 1 (requesting 0)).2 =
      some ⟨0, 0, 64⟩ := by decide +kernel
  have hle := (hall (sessionTablesInit 0) _ (limitOf 16) htStation 1 1 (requesting 0) ⟨0, 0, 64⟩
    (Prod.ext rfl hrsp) rfl (by decide +kernel)).2.2
  revert hle
  decide +kernel

theorem window_iff_limit64 :
    ((((peerAddBaReqAction (sessionTablesInit 0) (limitOf 64) htStation 1
          (requesting 300)).1.ad.baRecEntry 1).baWinSize.toNat = 44 ∧
        1 ≤ ((peerAddBaReqAction (sessionTablesInit 0) (limitOf 64) htStation 1
          (requesting 300)).1.ad.baRecEntry 1).baWinSize.toNat ∧
        ((peerAddBaReqAction (sessionTablesInit 0) (limitOf 64) htStation 1
          (requesting 300)).1.ad.baRecEntry 1).baWinSize.toNat ≤ 64) ↔ WinFits 300 64) := by
  have hrsp : (peerAddBaReqAction (sessionTablesInit 0) (limitOf 64) htStation 1
      (requesting 300)).2 = some ⟨0, 0, 44⟩ := by decide +kernel
  exact window_iff (Prod.ext rfl hrsp) rfl (by decide +kernel)

end Example

end Mt7601.Ba
