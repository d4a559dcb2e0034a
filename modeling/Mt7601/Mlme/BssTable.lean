/-
# The scan table and the SSID table

The tables of `common/mlme.c`: `BssTableInit`, `BssTableSearch`, `BssTableSetEntry`,
`BssTableDeleteEntry`, `BssTableSsidSort` and `BssTableSortByRssi`. An entry refers to a buffer for
the elements of probe responses, which is no part of it: buffers are told apart by a number, and the
heap says what is in them. Entries are copied with the reference and without the buffer.
-/
import Mt7601.Mlme.BssEntry
import Mathlib.Logic.Function.Basic

namespace Mt7601.Mlme

/-- `MAX_LEN_OF_BSS_TABLE` -/
def maxLenOfBssTable : Nat := 128

/-- `BSS_TABLE` -/
structure BssTable where
  bssNr : Nat
  bssOverlapNr : Nat
  entry : Nat → BssEntry

/-- The buffers. -/
abbrev Heap := Nat → List UInt8

def zeroVie : List UInt8 := List.replicate maxVieLen 0

namespace BssTable

def setEntry (tab : BssTable) (i : Nat) (e : BssEntry) : BssTable :=
  { tab with entry := Function.update tab.entry i e }

@[simp] theorem entry_setEntry_self (tab : BssTable) (i : Nat) (e : BssEntry) :
    (tab.setEntry i e).entry i = e := Function.update_self _ _ _

theorem entry_setEntry_of_ne (tab : BssTable) {i j : Nat} (e : BssEntry) (h : j ≠ i) :
    (tab.setEntry i e).entry j = tab.entry j := Function.update_of_ne h _ _

end BssTable

/-! ## 1. `BssTableInit` -/

/-- A buffer is zeroed, if there is one. -/
def zeroBuffer (p : Option Nat) (heap : Heap) : Heap :=
  match p with
  | some p => Function.update heap p zeroVie
  | none => heap

/-- A pass of the loop: the entry keeps its buffer, which is zeroed as well. -/
def bssInitEntry (s : BssTable × Heap) (i : Nat) : BssTable × Heap :=
  let pOldAddr := (s.1.entry i).pVarIeFromProbRsp
  (s.1.setEntry i { rssi := -127, pVarIeFromProbRsp := pOldAddr }, zeroBuffer pOldAddr s.2)

/-- `BssTableInit` -/
def bssTableInit (tab : BssTable) (heap : Heap) : BssTable × Heap :=
  (List.range maxLenOfBssTable).foldl bssInitEntry
    ({ tab with bssNr := 0, bssOverlapNr := 0 }, heap)

/-! ## 2. `BssTableSearch` and `BssTableSetEntry` -/

/-- The same band: both channels up to 14, or both above. -/
def sameBand (c d : UInt8) : Bool := (c ≤ 14 && d ≤ 14) || (c > 14 && d > 14)

/-- `BssTableSearch` -/
def bssTableSearch (tab : BssTable) (bssid : List UInt8) (channel : UInt8) : Option Nat :=
  (List.range tab.bssNr).find? fun i =>
    sameBand (tab.entry i).channel channel && (tab.entry i).bssid == bssid

/-- `SSID_EQUAL` -/
def ssidEqual (ssid1 : List UInt8) (len1 : UInt8) (ssid2 : List UInt8) (len2 : UInt8) : Bool :=
  len1 == len2 && Mem.read ssid1 0 len1.toNat == Mem.read ssid2 0 len1.toNat

/-- What `BssTableSetEntry` looks at when the table is full. -/
structure Desired where
  mediaConnected : Bool := false
  apMediaConnected : Bool := false
  bssid : List UInt8 := List.replicate 6 0
  ssid : List UInt8 := List.replicate maxLenOfSsid 0
  ssidLen : UInt8 := 0
  cfgPendingSsid : List UInt8 := List.replicate maxLenOfSsid 0
  cfgPendingSsidLen : UInt8 := 0

/-- The frame is of the access point that is looked for. -/
def Desired.wants (d : Desired) (ie : BcnIeList) : Bool :=
  d.bssid == ie.bssid || ssidEqual d.ssid d.ssidLen ie.ssid ie.ssidLen ||
    ssidEqual d.cfgPendingSsid d.cfgPendingSsidLen ie.ssid ie.ssidLen

section

variable (getCentCh : List UInt8 → List UInt8 → UInt8)

/-- `BssTableSetEntry`: the table, `Cfg_pending_Ssid` (as part of `d`) and the index returned. -/
def bssTableSetEntry (d : Desired) (behind : List UInt8) (tab : BssTable) (b : Beacon) :
    BssTable × Desired × Option Nat :=
  let set := fun i => tab.setEntry i (bssEntrySet getCentCh behind (tab.entry i) b)
  match bssTableSearch tab b.ieList.bssid b.ieList.channel with
  | some i => (set i, d, some i)
  | none =>
    if tab.bssNr ≥ maxLenOfBssTable then
      if !d.mediaConnected || !d.apMediaConnected then
        if d.wants b.ieList then
          ({ set tab.bssOverlapNr with
              bssOverlapNr := (tab.bssOverlapNr + 1) % maxLenOfBssTable },
            { d with
              cfgPendingSsidLen := 0
              cfgPendingSsid := List.replicate maxLenOfSsid 0 },
            some tab.bssOverlapNr)
        else (tab, d, none)
      else (tab, d, none)
    else ({ set tab.bssNr with bssNr := tab.bssNr + 1 }, d, some tab.bssNr)

end

/-! ## 3. `BssTableDeleteEntry` -/

/-- What a reference refers to. -/
def Heap.at (heap : Heap) (p : Option Nat) : List UInt8 :=
  match p with
  | some p => heap p
  | none => []

/-- A pass of the shift: the entry behind is copied over entry `j`, and its buffer into the buffer
of entry `j`, if that has one; if not, the reference is copied as well. -/
def bssShiftEntry (s : BssTable × Heap) (j : Nat) : BssTable × Heap :=
  let pOldAddr := (s.1.entry j).pVarIeFromProbRsp
  let src := s.1.entry (j + 1)
  match pOldAddr with
  | some p =>
    let heap := zeroBuffer (some p) s.2
    let text := Mem.read (heap.at src.pVarIeFromProbRsp) 0 src.varIeFromProbeRspLen
    (s.1.setEntry j { src with pVarIeFromProbRsp := some p },
      Function.update heap p (Mem.write (heap p) 0 text))
  | none => (s.1.setEntry j src, s.2)

/-- The last entry is zeroed; it keeps its buffer. -/
def bssZeroEntry (s : BssTable × Heap) (k : Nat) : BssTable × Heap :=
  let pOldAddr := (s.1.entry k).pVarIeFromProbRsp
  (s.1.setEntry k { pVarIeFromProbRsp := pOldAddr }, zeroBuffer pOldAddr s.2)

/-- The entry that is deleted. -/
def bssDeleteIndex (tab : BssTable) (bssid : List UInt8) (channel : UInt8) : Option Nat :=
  (List.range tab.bssNr).find? fun i =>
    (tab.entry i).channel == channel && (tab.entry i).bssid == bssid

/-- `BssTableDeleteEntry` -/
def bssTableDeleteEntry (tab : BssTable) (heap : Heap) (bssid : List UInt8) (channel : UInt8) :
    BssTable × Heap :=
  match bssDeleteIndex tab bssid channel with
  | some i =>
    let s := (List.range' i (tab.bssNr - 1 - i)).foldl bssShiftEntry (tab, heap)
    let s := bssZeroEntry s (tab.bssNr - 1)
    ({ s.1 with bssNr := tab.bssNr - 1 }, s.2)
  | none => (tab, heap)

/-! ## 4. `BssTableSsidSort` -/

/-- What `BssTableSsidSort` looks at of the station's configuration. -/
structure StaConfig where
  bAutoConnectIfNoSSID : Bool := true
  bIEEE80211H : Bool := false
  mlmeAuxChannel : UInt8 := 1
  radarChannelCheck : UInt8 → Bool := fun _ => false
  bssType : UInt8 := bssInfra
  /-- `WPA_SUPPLICANT_ENABLE_WPS` in `WpaSupplicantUP` -/
  enableWps : Bool := false
  /-- `Rt802_11_D_Strict` -/
  dStrict : Bool := false
  phyMode : Nat := 14
  authMode : AuthenticationMode := AuthenticationMode.open'
  wepStatus : WepStatus := WepStatus.wepDisabled

/-- `WMODE_HT_ONLY`: no bit but those of `WMODE_GN`, `WMODE_AN` and `WMODE_AC`. -/
def wmodeHtOnly (phyMode : Nat) : Bool := phyMode &&& 0x38 = phyMode

/-- The N only and GN only modes refuse the access point. -/
def StaConfig.refusesRates (cfg : StaConfig) (pInBss : BssEntry) : Bool :=
  (pInBss.htCapabilityLen = 0 && wmodeHtOnly cfg.phyMode) ||
    (cfg.phyMode = 12 && pInBss.supRateLen.toNat + pInBss.extRateLen.toNat < 12)

/-- The pairwise cipher, if TKIP is set: one of the two must be it. -/
def StaConfig.refusesPair (cfg : StaConfig) (suite : CipherSuite) : Bool :=
  cfg.wepStatus = WepStatus.encryption2Enabled && cfg.wepStatus ≠ suite.pairCipher &&
    cfg.wepStatus ≠ suite.pairCipherAux

/-- The group cipher: `less` is the one that is compared, `suite` the one of the mode. -/
def StaConfig.refusesGroup (cfg : StaConfig) (less suite : CipherSuite) (wepToo : Bool) : Bool :=
  (!suite.bMixMode && cfg.wepStatus ≠ suite.groupCipher) ||
    (decide (cfg.wepStatus < less.groupCipher) &&
      (!wepToo || (suite.groupCipher ≠ WepStatus.groupWep40Enabled &&
        suite.groupCipher ≠ WepStatus.groupWep104Enabled)))

/-- The tests on the authentication mode and the ciphers. With an SSID, a WEP group cipher passes,
and for WPA2 the group cipher of WPA is compared. -/
def StaConfig.refusesCiphers (cfg : StaConfig) (withSsid : Bool) (pInBss : BssEntry) : Bool :=
  let c := pInBss.ciphers
  if cfg.authMode ≥ AuthenticationMode.wpa then
    (cfg.authMode ≠ c.authMode && cfg.authMode ≠ c.authModeAux) ||
      (if cfg.authMode = AuthenticationMode.wpa ∨ cfg.authMode = AuthenticationMode.wpaPsk then
        cfg.refusesGroup c.wpa c.wpa withSsid || cfg.refusesPair c.wpa
      else if cfg.authMode = AuthenticationMode.wpa2 ∨
          cfg.authMode = AuthenticationMode.wpa2Psk then
        cfg.refusesGroup (if withSsid then c.wpa else c.wpa2) c.wpa2 withSsid ||
          cfg.refusesPair c.wpa2
      else false)
  else cfg.wepStatus ≠ c.wepStatus && !(withSsid && c.bSES)

/-- What becomes of an entry of the scan table. -/
inductive Sorted where
  | leave
  | take
  /-- taken, and the loop goes on without a look at the room -/
  | takeAtOnce
  deriving DecidableEq

/-- The tests of `BssTableSsidSort` on an entry. -/
def StaConfig.sorts (cfg : StaConfig) (ssid : List UInt8) (ssidLen : UInt8) (pInBss : BssEntry) :
    Sorted :=
  let hiddenIncluded := cfg.bIEEE80211H && cfg.mlmeAuxChannel > 14 &&
    cfg.radarChannelCheck pInBss.channel && pInBss.hidden
  if pInBss.bssType = cfg.bssType ∧
      (ssidEqual ssid ssidLen pInBss.ssid pInBss.ssidLen ∨ hiddenIncluded) then
    if cfg.enableWps then .takeAtOnce
    else if cfg.dStrict && !pInBss.bHasCountryIE then .leave
    else if cfg.refusesRates pInBss then .leave
    else if cfg.refusesCiphers true pInBss then .leave
    else if ssidLen = 0 then .leave
    else .take
  else if pInBss.bssType = cfg.bssType ∧ ssidLen = 0 then
    if cfg.refusesRates pInBss then .leave
    else if cfg.refusesCiphers false pInBss then .leave
    else .take
  else .leave

/-- The loop over the scan table, from entry `i` on; the entries are copied as they are. -/
def bssSortLoop (cfg : StaConfig) (ssid : List UInt8) (ssidLen : UInt8) (scanTab : BssTable) :
    Nat → BssTable → Nat → BssTable
  | 0, outTab, _ => outTab
  | passes + 1, outTab, i =>
    let pInBss := scanTab.entry i
    let copied := { outTab.setEntry outTab.bssNr pInBss with bssNr := outTab.bssNr + 1 }
    match cfg.sorts ssid ssidLen pInBss with
    | .takeAtOnce => bssSortLoop cfg ssid ssidLen scanTab passes copied (i + 1)
    | .take =>
      if copied.bssNr ≥ maxLenOfBssTable then copied
      else bssSortLoop cfg ssid ssidLen scanTab passes copied (i + 1)
    | .leave =>
      bssSortLoop cfg ssid ssidLen scanTab passes outTab (i + 1)

/-- A comparison of `BssTableSortByRssi`. -/
def bssSwap (tab : BssTable) (ij : Nat × Nat) : BssTable :=
  if (tab.entry ij.2).rssi > (tab.entry ij.1).rssi then
    (tab.setEntry ij.2 (tab.entry ij.1)).setEntry ij.1 (tab.entry ij.2)
  else tab

/-- `BssTableSortByRssi`; without memory for a copy nothing is sorted. -/
def bssTableSortByRssi (allocated : Bool) (tab : BssTable) : BssTable :=
  if allocated then
    ((List.range (tab.bssNr - 1)).flatMap fun i =>
      (List.range' (i + 1) (tab.bssNr - (i + 1))).map fun j => (i, j)).foldl bssSwap tab
  else tab

/-- `BssTableSsidSort` -/
def bssTableSsidSort (cfg : StaConfig) (allocated : Bool) (ssid : List UInt8) (ssidLen : UInt8)
    (scanTab outTab : BssTable) (heap : Heap) : BssTable × Heap :=
  let (outTab, heap) := bssTableInit outTab heap
  if ssidLen = 0 ∧ cfg.bAutoConnectIfNoSSID = false then (outTab, heap)
  else
    (bssTableSortByRssi allocated (bssSortLoop cfg ssid ssidLen scanTab scanTab.bssNr outTab 0),
      heap)

end Mt7601.Mlme
