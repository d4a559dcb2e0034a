/-
# The network type of a scan entry

`NetworkTypeInUseSanity` of `common/cmm_sanity.c`. Its second loop runs over the length of the
extended rates, but reads the supported rates again; `networkType_iff` says for which entries that
makes no difference.
-/
import Mt7601.Mlme.BssEntry

namespace Mt7601.Mlme

/-! ## 1. `NetworkTypeInUseSanity` -/

/-- `NDIS_802_11_NETWORK_TYPE`, as far as it is answered. -/
inductive NetworkType where
  | ds
  | ofdm5
  | ofdm24
  | ofdm5N
  | ofdm24N
  deriving DecidableEq

/-- 1, 2, 5.5 or 11 Mbit/s, the basic rate bit masked out. -/
def isCckRate (rate : UInt8) : Bool :=
  let rate := rate &&& 0x7f
  rate = 2 || rate = 4 || rate = 11 || rate = 22

/-- The first `len` octets of an array of rates are such rates. -/
def onlyCck (rates : List UInt8) (len : UInt8) : Bool :=
  (Mem.read rates 0 len.toNat).all isCckRate

/-- `NetworkTypeInUseSanity` -/
def networkTypeInUseSanity (pBss : BssEntry) : NetworkType :=
  let netWorkType :=
    if pBss.channel ≤ 14 then
      if !onlyCck pBss.supRate pBss.supRateLen then NetworkType.ofdm24
      -- the extended rates: their length, and the array of the supported ones
      else if !onlyCck pBss.supRate pBss.extRateLen then .ofdm24
      else .ds
    else .ofdm5
  if pBss.htCapabilityLen ≠ 0 then
    if netWorkType = .ofdm5 then .ofdm5N else .ofdm24N
  else netWorkType

/-! ## 2. A pure 802.11b network -/

/-- The entry announces no other rates, and no HT capability. -/
def BssEntry.IsPureB (pBss : BssEntry) : Prop :=
  pBss.htCapabilityLen = 0 ∧ onlyCck pBss.supRate pBss.supRateLen = true ∧
    onlyCck pBss.extRate pBss.extRateLen = true

/-- **The condition.** An HT capability or a supported rate decides already; or the octets that are
read in place of the extended rates are of the same kind as these. -/
def BssEntry.ExtRatesShown (pBss : BssEntry) : Prop :=
  pBss.htCapabilityLen ≠ 0 ∨ onlyCck pBss.supRate pBss.supRateLen = false ∨
    onlyCck pBss.supRate pBss.extRateLen = onlyCck pBss.extRate pBss.extRateLen

theorem networkType_ds_iff {pBss : BssEntry} (hchannel : pBss.channel ≤ 14) :
    networkTypeInUseSanity pBss = .ds ↔ pBss.htCapabilityLen = 0 ∧
      onlyCck pBss.supRate pBss.supRateLen = true ∧
      onlyCck pBss.supRate pBss.extRateLen = true := by
  unfold networkTypeInUseSanity
  rw [if_pos hchannel]
  by_cases hht : pBss.htCapabilityLen = 0
  · cases hsup : onlyCck pBss.supRate pBss.supRateLen <;>
      cases hext : onlyCck pBss.supRate pBss.extRateLen <;> simp [hht]
  · cases hsup : onlyCck pBss.supRate pBss.supRateLen <;>
      cases hext : onlyCck pBss.supRate pBss.extRateLen <;> simp [hht]

/-- **The answer is `Ndis802_11DS` for the pure 802.11b networks, exactly on the condition.** -/
theorem networkType_iff (pBss : BssEntry) (hchannel : pBss.channel ≤ 14) :
    (networkTypeInUseSanity pBss = .ds ↔ pBss.IsPureB) ↔ pBss.ExtRatesShown := by
  rw [networkType_ds_iff hchannel]
  unfold BssEntry.IsPureB BssEntry.ExtRatesShown
  by_cases hht : pBss.htCapabilityLen = 0
  swap
  · simp [hht]
  cases hsup : onlyCck pBss.supRate pBss.supRateLen with
  | false => simp
  | true =>
    cases hread : onlyCck pBss.supRate pBss.extRateLen <;>
      cases hext : onlyCck pBss.extRate pBss.extRateLen <;> simp [hht]

namespace Example

/-- An 802.11g network that gives its OFDM rates in the extended list. -/
def ofdmInExtRate : BssEntry where
  channel := 6
  supRate := [0x82, 0x84, 0x8b, 0x96, 0, 0, 0, 0, 0, 0, 0, 0]
  supRateLen := 4
  extRate := [12, 18, 24, 36, 0, 0, 0, 0, 0, 0, 0, 0]
  extRateLen := 4

/-- The same rates in one list. -/
def ofdmInSupRate : BssEntry where
  channel := 6
  supRate := [0x82, 0x84, 0x8b, 0x96, 12, 18, 24, 36, 0, 0, 0, 0]
  supRateLen := 8

/-- It is taken for an 802.11b network. -/
theorem not_networkType_ofdmInExtRate :
    ¬ (networkTypeInUseSanity ofdmInExtRate = .ds ↔ ofdmInExtRate.IsPureB) := by
  have hds : networkTypeInUseSanity ofdmInExtRate = .ds := by decide
  have hext : onlyCck ofdmInExtRate.extRate ofdmInExtRate.extRateLen = false := by decide
  intro h
  have hb := (h.mp hds).2.2
  rw [hext] at hb
  exact absurd hb (by decide)

theorem networkType_ofdmInSupRate :
    (networkTypeInUseSanity ofdmInSupRate = .ds ↔ ofdmInSupRate.IsPureB) ↔
      ofdmInSupRate.ExtRatesShown :=
  networkType_iff ofdmInSupRate (by decide)

end Example

end Mt7601.Mlme
