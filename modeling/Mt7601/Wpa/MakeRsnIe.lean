/-
# The own RSN elements, and what is read in them

`RTMPMakeRSNIE` with the three functions that put a body together, and `RTMPInsertRSNIE`, which puts
an identifier and a length in front of it and the PMKIDs behind it (`common/cmm_wpa.c`), for a BSS
of an access point, an AP client and a station. What `WPA_ExtractSuiteFromRSNIE` finds in the
element are the ciphers and the authentication the interface is set to, and the PMKIDs.

The bodies are put together in memory that was cleared, so they are the concatenation of what the
three functions write.
-/
import Mt7601.Wpa.Construct
import Mt7601.Wpa.ExtractSuite

namespace Mt7601.Wpa.MakeRsnIe

open Ap (WpaVersion Suite isApWpaMode)

/-! ## 1. The settings -/

/-- What is read of a `MULTISSID_STRUCT`. -/
structure Mbss where
  wpaMixPairCipher : UInt8
  preAuth : Bool

/-- What is read of the entry of an AP client. There is one (`MAX_APCLI_NUM`). -/
structure ApCli where
  wpaSupplicantUp : Bool
  bMixCipher : Bool

/-- What is read of `StaCfg`. -/
structure StaCfg where
  wpaSupplicantUp : Bool
  bMixCipher : Bool
  groupCipher : WepStatus

/-- What is read of the adapter. -/
structure RsnAdapter where
  opMode : OpMode
  bssidNum : Nat
  maxMbssidNum : Nat
  mbssid : Nat → Mbss
  apCli : ApCli
  staCfg : StaCfg

/-- `MIN_NET_DEVICE_FOR_APCLI`, `MAX_APCLI_NUM` and `HW_BEACON_MAX_NUM` -/
def minNetDeviceForApCli : Nat := 0x20
def maxApCliNum : Nat := 1
def hwBeaconMaxNum : Nat := 16

/-- `MIX_CIPHER_WPA_TKIP_ON`, `MIX_CIPHER_WPA2_TKIP_ON` -/
def tkipOn (x : UInt8) : WpaVersion → Bool
  | .wpa => x &&& 0x08 ≠ 0
  | .wpa2 => x &&& 0x02 ≠ 0

/-- `MIX_CIPHER_WPA_AES_ON`, `MIX_CIPHER_WPA2_AES_ON` -/
def aesOn (x : UInt8) : WpaVersion → Bool
  | .wpa => x &&& 0x04 ≠ 0
  | .wpa2 => x &&& 0x01 ≠ 0

/-- `OUI_WPA_WEP40`, `OUI_WPA2_WEP40`, `OUI_WPA_WEP104`, `OUI_WPA2_WEP104`, `OUI_WPA_NONE_AKM` -/
def wep40 (v : WpaVersion) : Suite := v.oui ++ [1]
def wep104 (v : WpaVersion) : Suite := v.oui ++ [5]
def wpaNoneAkm : Suite := [0x00, 0x50, 0xf2, 0x00]

/-! ## 2. Putting a body together -/

/-- The group suite a station puts in place of the other. -/
def groupOverride (ad : RsnAdapter) (v : WpaVersion) (mcast : Suite) : Suite :=
  if ad.opMode = .sta ∧ ad.staCfg.groupCipher ≠ .encryption2Enabled ∧
      ad.staCfg.groupCipher ≠ .encryption3Enabled then
    match ad.staCfg.groupCipher with
    | .groupWep40Enabled => wep40 v
    | .groupWep104Enabled => wep104 v
    | _ => mcast
  else mcast

/-- `mcast` and `ucast` of the body; other states of `WepStatus` leave `*rsn_len` zero. -/
def suitesFor (v : WpaVersion) (wepStatus : WepStatus) (bMixCipher : Bool)
    (flexibleCipher : UInt8) : Option (Suite × List Suite) :=
  match wepStatus with
  | .encryption2Enabled => some (v.tkip, [v.tkip])
  | .encryption3Enabled => some (if bMixCipher then v.tkip else v.ccmp, [v.ccmp])
  | .encryption4Enabled =>
    some (v.tkip,
      if tkipOn flexibleCipher v then
        if aesOn flexibleCipher v then [v.tkip, v.ccmp] else [v.tkip]
      else [v.ccmp])
  | _ => none

/-- `RTMPMakeRsnIeCipher` -/
def rtmpMakeRsnIeCipher (ad : RsnAdapter) (v : WpaVersion) (wepStatus : WepStatus)
    (bMixCipher : Bool) (flexibleCipher : UInt8) : List UInt8 :=
  match suitesFor v wepStatus bMixCipher flexibleCipher with
  | some (mcast, ucast) =>
    v.front ++ groupOverride ad v mcast ++ (CountedList.le16 ucast.length ++ ucast.flatten)
  | none => []

/-- The suite `RTMPMakeRsnIeAKM` writes; where there is none the count is zero. -/
def akmFor : WpaVersion → AuthMode → Option Suite
  | .wpa2, .wpa2 | .wpa2, .wpa1Wpa2 => some WpaVersion.wpa2.akm8021x
  | .wpa2, .wpa2Psk | .wpa2, .wpa1PskWpa2Psk => some WpaVersion.wpa2.akmPsk
  | .wpa, .wpa | .wpa, .wpa1Wpa2 => some WpaVersion.wpa.akm8021x
  | .wpa, .wpaPsk | .wpa, .wpa1PskWpa2Psk => some WpaVersion.wpa.akmPsk
  | .wpa, .wpaNone => some wpaNoneAkm
  | _, _ => none

/-- `RTMPMakeRsnIeAKM` -/
def rtmpMakeRsnIeAkm (v : WpaVersion) (authMode : AuthMode) : List UInt8 :=
  match akmFor v authMode with
  | some akm => CountedList.le16 1 ++ akm
  | none => CountedList.le16 0

/-- `RTMPMakeRsnIeCap` -/
def rtmpMakeRsnIeCap (ad : RsnAdapter) (v : WpaVersion) (apidx : Nat) : List UInt8 :=
  if v = .wpa then []
  else
    [if ad.opMode = .ap ∧ apidx < ad.bssidNum ∧ (ad.mbssid apidx).preAuth then 1 else 0, 0]

/-! ## 3. `RTMPMakeRSNIE` -/

/-- What is decided about the interface before a body is put together. -/
structure RsnContext where
  apidx : Nat
  bMixCipher : Bool
  flexibleCipher : UInt8
  bMixRsnIe : Bool

/-- `AuthMode >= Ndis802_11AuthModeWPA` -/
def atLeastWpa : AuthMode → Bool
  | .openSystem | .shared | .autoSwitch => false
  | _ => true

/-- An interface is made for the modes of the source's own, or with a supplicant for all from WPA
on. -/
def modeSupported (wpaSupplicantUp : Bool) (own : List AuthMode) (authMode : AuthMode) : Bool :=
  if wpaSupplicantUp then atLeastWpa authMode else own.contains authMode

/-- `AuthMode` is WPA and WPA2 at once. -/
def isMixed (authMode : AuthMode) : Bool := authMode = .wpa1Wpa2 ∨ authMode = .wpa1PskWpa2Psk

/-- The interface by its index; nothing for a mode it is not made for. -/
def selectInterface (ad : RsnAdapter) (authMode : AuthMode) (wepStatus : WepStatus)
    (apidx : Nat) : Option RsnContext :=
  if minNetDeviceForApCli ≤ apidx then
    if modeSupported ad.apCli.wpaSupplicantUp [.wpaPsk, .wpa2Psk] authMode ∧
        apidx - minNetDeviceForApCli < maxApCliNum then
      some { apidx, bMixCipher := ad.apCli.bMixCipher, flexibleCipher := 0, bMixRsnIe := false }
    else none
  else
    match ad.opMode with
    | .ap =>
      -- `MBSS_MR_APIDX_SANITY_CHECK`
      let apidx := if ad.maxMbssidNum ≤ apidx ∨ hwBeaconMaxNum ≤ apidx then 0 else apidx
      if isApWpaMode authMode then
        some { apidx, bMixCipher := false
               flexibleCipher :=
                 if wepStatus = .encryption4Enabled then (ad.mbssid apidx).wpaMixPairCipher else 0
               bMixRsnIe := isMixed authMode }
      else none
    | .sta =>
      if modeSupported ad.staCfg.wpaSupplicantUp [.wpaPsk, .wpa2Psk, .wpaNone] authMode then
        some { apidx, bMixCipher := ad.staCfg.bMixCipher, flexibleCipher := 0, bMixRsnIe := false }
      else none

/-- `PrimaryRsnie` -/
def primaryRsnIe : AuthMode → WpaVersion
  | .wpa | .wpaPsk | .wpaNone | .wpa1Wpa2 | .wpa1PskWpa2Psk => .wpa
  | _ => .wpa2

/-- One body: `pRsnIe` with its length. -/
def bodyOf (ad : RsnAdapter) (c : RsnContext) (v : WpaVersion) (authMode : AuthMode)
    (wepStatus : WepStatus) : List UInt8 :=
  rtmpMakeRsnIeCipher ad v wepStatus c.bMixCipher c.flexibleCipher ++
    rtmpMakeRsnIeAkm v authMode ++ rtmpMakeRsnIeCap ad v c.apidx

/-- `RTMPMakeRSNIE`: the primary body, and the secondary one if it is made. -/
def rtmpMakeRsnIe (ad : RsnAdapter) (authMode : AuthMode) (wepStatus : WepStatus) (apidx : Nat) :
    Option (List UInt8 × Option (List UInt8)) :=
  (selectInterface ad authMode wepStatus apidx).map fun c =>
    (bodyOf ad c (primaryRsnIe authMode) authMode wepStatus,
      if ad.opMode = .ap ∧ c.bMixRsnIe then some (bodyOf ad c .wpa2 authMode wepStatus) else none)

/-! ## 4. `RTMPInsertRSNIE` -/

/-- `extra_len`: the field of the PMKIDs, if their length is not zero and a multiple of 16. -/
def extraLen (pmkidLen : UInt8) : UInt8 :=
  if 0 < pmkidLen ∧ pmkidLen &&& 0x0f = 0 then 2 + pmkidLen else 0

/-- `RTMPInsertRSNIE`: what it appends. Its lengths are octets, also their sum. -/
def rtmpInsertRsnie (rsniePtr : List UInt8) (rsnieLen : UInt8) (pmkidPtr : List UInt8)
    (pmkidLen : UInt8) : List UInt8 :=
  let rsnie := Mem.read rsniePtr 0 rsnieLen.toNat
  if rsnieLen ≠ 0 then
    if Mem.read rsniePtr 2 3 = ouiWpa2 then
      [ieRsn, rsnieLen + extraLen pmkidLen] ++ rsnie ++
        if 0 < extraLen pmkidLen then
          CountedList.le16 (pmkidLen >>> 4).toNat ++ Mem.read pmkidPtr 0 pmkidLen.toNat
        else []
    else [ieWpa, rsnieLen] ++ rsnie
  else []

/-! ## 5. Elements by what they list -/

/-- What a body lists: each suite has four octets, there is at least one of each kind, and the group
suite is of the version; the capabilities stand in an RSN body only. -/
structure RsnBody (v : WpaVersion) where
  group : Suite
  pairwise : List Suite
  akms : List Suite
  cap : List UInt8
  group_length : group.length = 4
  group_oui : group.take 3 = v.oui
  pairwise_length : ∀ suite ∈ pairwise, suite.length = 4
  pairwise_pos : 0 < pairwise.length
  akms_length : ∀ suite ∈ akms, suite.length = 4
  akms_pos : 0 < akms.length
  cap_length : cap.length = if v = .wpa then 0 else 2

/-- The field of the PMKIDs: an RSN element has one if there are any. -/
def pmkidField (v : WpaVersion) (pmkids : List (Octets 16)) : List UInt8 :=
  if v = .wpa2 ∧ pmkids ≠ [] then CountedList.encode (pmkids.map List.Vector.toList) else []

namespace RsnBody

variable {v : WpaVersion} (b : RsnBody v) (pmkids : List (Octets 16))

def octets : List UInt8 :=
  v.front ++ b.group ++ CountedList.encode b.pairwise ++ CountedList.encode b.akms ++ b.cap

/-- What the length octet of the element counts. -/
def totalLen : Nat := (b.octets ++ pmkidField v pmkids).length

def element : List UInt8 :=
  [v.eid, UInt8.ofNat (b.totalLen pmkids)] ++ (b.octets ++ pmkidField v pmkids)

end RsnBody

/-- What is read in an element: the items at the pointer, as many as are counted. -/
def extracted (rsnie : List UInt8) (type : SuiteType) : Checked (Option (List (List UInt8))) := do
  let suites ← wpaExtractSuiteFromRsnIe rsnie (UInt32.ofNat rsnie.length) type
  return suites.map fun found => CountedList.items rsnie type.itemLen found.1 found.2.toNat

namespace RsnBody

open ExtractSuite

variable {v : WpaVersion} (b : RsnBody v) (pmkids : List (Octets 16))

theorem length_pmkids : ∀ id ∈ pmkids.map List.Vector.toList, id.length = 16 := by
  intro id hid
  obtain ⟨w, -, rfl⟩ := List.mem_map.mp hid
  exact w.toList_length

theorem length_pmkidField {pmkids : List (Octets 16)} (h : v = .wpa2 ∧ pmkids ≠ []) :
    (pmkidField v pmkids).length = 2 + 16 * pmkids.length := by
  rw [pmkidField, if_pos h, CountedList.length_encode (length_pmkids pmkids), List.length_map]

theorem length_octets :
    b.octets.length = v.ucast + 4 * b.pairwise.length + (2 + 4 * b.akms.length) + b.cap.length := by
  have hpairwise := CountedList.length_encode b.pairwise_length
  have hakms := CountedList.length_encode b.akms_length
  have hgroup := b.group_length
  have hfront : v.front.length + 6 = v.ucast := rfl
  simp only [octets, List.length_append]
  omega

theorem length_element : (b.element pmkids).length = b.totalLen pmkids + 2 := by
  simp [element, totalLen]

/-- An element that its length octet can count is read in the layout of its version. -/
theorem wpaExtractSuiteFromRsnIe_element (type : SuiteType) (hlen : b.totalLen pmkids ≤ 255) :
    wpaExtractSuiteFromRsnIe (b.element pmkids) (UInt32.ofNat (b.element pmkids).length) type =
      extractCipher (b.element pmkids) v type 2 (b.totalLen pmkids : Nat) := by
  have hlength := b.length_element pmkids
  have hoctets := b.length_octets
  have hucast : 8 ≤ v.ucast := by cases v <;> decide
  have htotal : b.octets.length ≤ b.totalLen pmkids := by simp [totalLen]
  have hsize : (b.element pmkids).length =
      (UInt32.ofNat (b.element pmkids).length).toNat := by
    rw [UInt32.toNat_ofNat']
    omega
  have hlenOctet : ((b.element pmkids).getD 1 0).toNat = b.totalLen pmkids := by
    have hget : (b.element pmkids).getD 1 0 = UInt8.ofNat (b.totalLen pmkids) := rfl
    rw [hget, UInt8.toNat_ofNat']
    omega
  have heid : WpaVersion.ofEid ((b.element pmkids).getD 0 0) = some v := by
    have hget : (b.element pmkids).getD 0 0 = v.eid := rfl
    rw [hget]
    cases v <;> rfl
  rw [wpaExtractSuiteFromRsnIe_eq hsize, if_pos (by omega), heid, hlength, Nat.add_sub_cancel]

/-! ## 6. The way back -/

/-- What stands in front of the pairwise suites. -/
def head : List UInt8 := [v.eid, UInt8.ofNat (b.totalLen pmkids)] ++ v.front ++ b.group

theorem length_head : (b.head pmkids).length = 2 + v.ucount := by
  have hgroup := b.group_length
  have hucount : v.ucount = v.front.length + 4 := rfl
  simp only [head, List.length_append, List.length_cons, List.length_nil]
  omega

theorem length_upToPairwise : (b.head pmkids ++ CountedList.encode b.pairwise).length =
    2 + (v.ucast + 4 * b.pairwise.length) := by
  have hhead := b.length_head pmkids
  have hpairwise := CountedList.length_encode b.pairwise_length
  have hucast : v.ucount + 2 = v.ucast := rfl
  rw [List.length_append]
  omega

theorem length_upToCap (hv : v = .wpa2) :
    (b.head pmkids ++ CountedList.encode b.pairwise ++ CountedList.encode b.akms ++
      b.cap).length =
    2 + (v.ucast + 4 * b.pairwise.length) + (2 + 4 * b.akms.length) + 2 := by
  have hfront := b.length_upToPairwise pmkids
  have hakms := CountedList.length_encode b.akms_length
  have hcap : b.cap.length = 2 := by
    rw [b.cap_length, hv]
    rfl
  rw [List.length_append, List.length_append, hfront, hakms, hcap]

theorem element_eq_pairwise : b.element pmkids =
    b.head pmkids ++ CountedList.encode b.pairwise ++
      (CountedList.encode b.akms ++ b.cap ++ pmkidField v pmkids) := by
  simp [element, octets, head]

theorem element_eq_akms : b.element pmkids =
    (b.head pmkids ++ CountedList.encode b.pairwise) ++ CountedList.encode b.akms ++
      (b.cap ++ pmkidField v pmkids) := by
  simp [element, octets, head]

theorem element_eq_pmkids : b.element pmkids =
    (b.head pmkids ++ CountedList.encode b.pairwise ++ CountedList.encode b.akms ++ b.cap) ++
      pmkidField v pmkids ++ [] := by
  simp [element, octets, head]

theorem toNat_count {n : Nat} (h : n ≤ 255) : (UInt8.ofNat n).toNat = n := by
  rw [UInt8.toNat_ofNat']
  omega

theorem read_group : Mem.read (b.element pmkids) (2 + v.mcast) 4 = b.group := by
  refine Mem.read_middle ([v.eid, UInt8.ofNat (b.totalLen pmkids)] ++ v.front)
    (CountedList.encode b.pairwise ++ (CountedList.encode b.akms ++ b.cap ++ pmkidField v pmkids))
    ?_ ?_ b.group_length.symm
  · simp [element, octets]
  · simp only [List.length_append, List.length_cons, List.length_nil]
    rfl

section

variable {b pmkids} (hlen : b.totalLen pmkids ≤ 255)
include hlen

/-- The counts are octets, and all the lists fit. -/
theorem counts : v.ucast + 4 * b.pairwise.length + (2 + 4 * b.akms.length) + b.cap.length +
    (pmkidField v pmkids).length ≤ 255 := by
  have hoctets := b.length_octets
  have htotal : b.totalLen pmkids = b.octets.length + (pmkidField v pmkids).length := by
    simp [totalLen]
  omega

theorem u16_pairwise : CountedList.u16 (b.element pmkids) (2 + v.ucount) = b.pairwise.length := by
  have hcounts := counts hlen
  rw [element_eq_pairwise, ← b.length_head pmkids]
  exact CountedList.u16_encode (by omega)

theorem u16_akms : CountedList.u16 (b.element pmkids) (2 + (v.ucast + 4 * b.pairwise.length)) =
    b.akms.length := by
  have hcounts := counts hlen
  rw [element_eq_akms, ← length_upToPairwise b pmkids]
  exact CountedList.u16_encode (by omega)

theorem u16_pmkids (hv : v = .wpa2) (hnil : pmkids ≠ []) :
    CountedList.u16 (b.element pmkids)
      (2 + (v.ucast + 4 * b.pairwise.length) + (2 + 4 * b.akms.length) + 2) = pmkids.length := by
  have hcounts := counts hlen
  rw [length_pmkidField ⟨hv, hnil⟩] at hcounts
  have hcount : (pmkids.map List.Vector.toList).length < 65536 := by
    rw [List.length_map]
    omega
  rw [element_eq_pmkids, pmkidField, if_pos ⟨hv, hnil⟩, ← length_upToCap b pmkids hv,
    CountedList.u16_encode hcount, List.length_map]

/-- The cipher part finds the pairwise suites where they are. -/
theorem extractCipher_element (type : SuiteType) :
    extractCipher (b.element pmkids) v type 2 (b.totalLen pmkids : Nat) =
      if type = .group then .ok (some (2 + v.mcast, 1))
      else if type = .pairwise then
        .ok (some (2 + v.ucast, UInt8.ofNat b.pairwise.length))
      else extractAkm (b.element pmkids) v type (2 + (v.ucast + 4 * b.pairwise.length))
        (b.totalLen pmkids - (v.ucast + 4 * b.pairwise.length) : Nat) := by
  have hsize := b.length_element pmkids
  have hoctets := b.length_octets
  have hpos := b.pairwise_pos
  have htotal : b.totalLen pmkids = b.octets.length + (pmkidField v pmkids).length := by
    simp [totalLen]
  rw [extractCipher_eq (by omega) (by omega), u16_pairwise hlen, if_neg (by omega)]

theorem extractAkm_element (type : SuiteType) :
    extractAkm (b.element pmkids) v type (2 + (v.ucast + 4 * b.pairwise.length))
        (b.totalLen pmkids - (v.ucast + 4 * b.pairwise.length) : Nat) =
      if type = .akm then
        .ok (some (2 + (v.ucast + 4 * b.pairwise.length) + 2, UInt8.ofNat b.akms.length))
      else if v = .wpa then .ok none
      else extractCapInfo (b.element pmkids) type
        (2 + (v.ucast + 4 * b.pairwise.length) + (2 + 4 * b.akms.length))
        (b.totalLen pmkids - (v.ucast + 4 * b.pairwise.length) - (2 + 4 * b.akms.length) : Nat) := by
  have hsize := b.length_element pmkids
  have hoctets := b.length_octets
  have hpos := b.akms_pos
  have htotal : b.totalLen pmkids = b.octets.length + (pmkidField v pmkids).length := by
    simp [totalLen]
  rw [extractAkm_eq (by omega) (by omega), u16_akms hlen, if_neg (by omega)]

/-- What follows the suites in an RSN element: the capabilities, and the PMKIDs if there are any. -/
theorem extractCapInfo_element (hv : v = .wpa2) :
    extractCapInfo (b.element pmkids) .pmkidList
        (2 + (v.ucast + 4 * b.pairwise.length) + (2 + 4 * b.akms.length))
        (b.totalLen pmkids - (v.ucast + 4 * b.pairwise.length) - (2 + 4 * b.akms.length) : Nat) =
      .ok (if pmkids = [] then none
        else some (2 + (v.ucast + 4 * b.pairwise.length) + (2 + 4 * b.akms.length) + 2 + 2,
          UInt8.ofNat pmkids.length)) := by
  subst hv
  have hsize := b.length_element pmkids
  have hoctets := b.length_octets
  have hcap : b.cap.length = 2 := b.cap_length
  have htotal : b.totalLen pmkids = b.octets.length + (pmkidField .wpa2 pmkids).length := by
    simp [totalLen]
  rw [extractCapInfo_eq (by omega), if_neg (by omega), if_neg (by decide),
    extractPmkidList_eq (by omega) (by omega)]
  by_cases hnil : pmkids = []
  · have hfield : (pmkidField .wpa2 pmkids).length = 0 := by
      rw [pmkidField, if_neg fun h => h.2 hnil]
      rfl
    rw [if_pos (.inl (by omega)), if_pos hnil]
  · have hpos : 0 < pmkids.length := List.length_pos_iff.mpr hnil
    have hfield := length_pmkidField (v := .wpa2) ⟨rfl, hnil⟩
    rw [u16_pmkids hlen rfl hnil, if_neg (by omega), if_pos rfl, if_neg hnil]

theorem extracted_group : extracted (b.element pmkids) .group = .ok (some [b.group]) := by
  rw [extracted, wpaExtractSuiteFromRsnIe_element _ _ _ hlen, extractCipher_element hlen,
    if_pos rfl, Checked.ok_bind]
  have hread := b.read_group pmkids
  change Except.ok (some [Mem.read (b.element pmkids) (2 + v.mcast) 4]) = _
  rw [hread]

theorem extracted_pairwise : extracted (b.element pmkids) .pairwise = .ok (some b.pairwise) := by
  have hcounts := counts hlen
  rw [extracted, wpaExtractSuiteFromRsnIe_element _ _ _ hlen, extractCipher_element hlen,
    if_neg (by decide), if_pos rfl, Checked.ok_bind]
  have hitems : CountedList.items (b.element pmkids) 4 (2 + v.ucast) b.pairwise.length =
      b.pairwise := by
    have hucast : 2 + v.ucast = (b.head pmkids).length + 2 := by
      rw [length_head]
      rfl
    rw [element_eq_pairwise, hucast]
    exact CountedList.items_encode b.pairwise_length
  change Except.ok (some (CountedList.items (b.element pmkids) 4 (2 + v.ucast)
    (UInt8.ofNat b.pairwise.length).toNat)) = _
  rw [toNat_count (by omega), hitems]

theorem extracted_akms : extracted (b.element pmkids) .akm = .ok (some b.akms) := by
  have hcounts := counts hlen
  rw [extracted, wpaExtractSuiteFromRsnIe_element _ _ _ hlen, extractCipher_element hlen,
    if_neg (by decide), if_neg (by decide), extractAkm_element hlen, if_pos rfl, Checked.ok_bind]
  have hitems : CountedList.items (b.element pmkids) 4
      (2 + (v.ucast + 4 * b.pairwise.length) + 2) b.akms.length = b.akms := by
    rw [element_eq_akms, ← length_upToPairwise b pmkids]
    exact CountedList.items_encode b.akms_length
  change Except.ok (some (CountedList.items (b.element pmkids) 4
    (2 + (v.ucast + 4 * b.pairwise.length) + 2) (UInt8.ofNat b.akms.length).toNat)) = _
  rw [toNat_count (by omega), hitems]

/-- A WPA element has no PMKIDs, and an RSN element without any no list. -/
theorem extracted_pmkids : extracted (b.element pmkids) .pmkidList =
    .ok (if v = .wpa2 ∧ pmkids ≠ [] then some (pmkids.map List.Vector.toList) else none) := by
  have hcounts := counts hlen
  rw [extracted, wpaExtractSuiteFromRsnIe_element _ _ _ hlen, extractCipher_element hlen,
    if_neg (by decide), if_neg (by decide), extractAkm_element hlen, if_neg (by decide)]
  by_cases hv : v = .wpa
  · have hno : ¬ (v = .wpa2 ∧ pmkids ≠ []) := by
      rintro ⟨hv2, -⟩
      rw [hv] at hv2
      exact nomatch hv2
    rw [if_pos hv, if_neg hno]
    rfl
  have hv2 : v = .wpa2 := by
    cases v
    · exact absurd rfl hv
    · rfl
  rw [if_neg hv, extractCapInfo_element hlen hv2, Checked.ok_bind]
  by_cases hnil : pmkids = []
  · rw [if_pos hnil, if_neg fun h => h.2 hnil]
    rfl
  rw [length_pmkidField ⟨hv2, hnil⟩] at hcounts
  have hitems : CountedList.items (b.element pmkids) 16
      (2 + (v.ucast + 4 * b.pairwise.length) + (2 + 4 * b.akms.length) + 2 + 2) pmkids.length =
      pmkids.map List.Vector.toList := by
    have hcount : (pmkids.map List.Vector.toList).length = pmkids.length := List.length_map _
    rw [element_eq_pmkids, pmkidField, if_pos ⟨hv2, hnil⟩, ← length_upToCap b pmkids hv2, ← hcount]
    exact CountedList.items_encode (length_pmkids pmkids)
  rw [if_neg hnil, if_pos ⟨hv2, hnil⟩]
  change Except.ok (some (CountedList.items (b.element pmkids) 16
    (2 + (v.ucast + 4 * b.pairwise.length) + (2 + 4 * b.akms.length) + 2 + 2)
    (UInt8.ofNat pmkids.length).toNat)) = _
  rw [toNat_count (by omega), hitems]

end

/-! ## 7. Behind `RTMPInsertRSNIE` -/

/-- The third to fifth octet tell the versions apart. -/
theorem read_oui : Mem.read b.octets 2 3 = ouiWpa2 ↔ v = .wpa2 := by
  cases v with
  | wpa =>
    have hread : Mem.read b.octets 2 3 = [0xf2, 0x01, 1] := by
      simp only [octets, List.append_assoc]
      rfl
    rw [hread]
    decide
  | wpa2 =>
    have hread : Mem.read b.octets 2 3 = ouiWpa2 := by
      refine Mem.read_middle [1, 0] (b.group.drop 3 ++ (CountedList.encode b.pairwise ++
        (CountedList.encode b.akms ++ b.cap))) ?_ rfl rfl
      have hgroup : b.group = ouiWpa2 ++ b.group.drop 3 := by
        have houi : b.group.take 3 = ouiWpa2 := b.group_oui
        rw [← houi, List.take_append_drop]
      rw [octets, hgroup]
      simp [WpaVersion.front, ouiWpa2]
    exact ⟨fun _ => rfl, fun _ => hread⟩

/-- The octets of the PMKIDs. -/
def pmkidOctets (pmkids : List (Octets 16)) : List UInt8 :=
  (pmkids.map List.Vector.toList).flatten

theorem length_pmkidOctets : (pmkidOctets pmkids).length = 16 * pmkids.length := by
  rw [pmkidOctets, CountedList.length_flatten_of_width (length_pmkids pmkids), List.length_map]

/-- The field of the PMKIDs has the length that is put on top of that of the body. -/
theorem extraLen_ofNat {n : Nat} (hpos : 0 < n) (hn : n ≤ 15) :
    extraLen (UInt8.ofNat (16 * n)) = UInt8.ofNat (2 + 16 * n) ∧
      (UInt8.ofNat (16 * n) >>> 4).toNat = n ∧ (0 : UInt8) < UInt8.ofNat (2 + 16 * n) := by
  have hall : ∀ k : Fin 16, 0 < k.val →
      extraLen (UInt8.ofNat (16 * k.val)) = UInt8.ofNat (2 + 16 * k.val) ∧
        (UInt8.ofNat (16 * k.val) >>> 4).toNat = k.val ∧
          (0 : UInt8) < UInt8.ofNat (2 + 16 * k.val) := by decide
  exact hall ⟨n, Nat.lt_succ_of_le hn⟩ hpos

/-- **`RTMPInsertRSNIE` makes the element of the body.** -/
theorem rtmpInsertRsnie_octets (hlen : b.totalLen pmkids ≤ 255) :
    rtmpInsertRsnie b.octets (UInt8.ofNat b.octets.length) (pmkidOctets pmkids)
      (UInt8.ofNat (pmkidOctets pmkids).length) = b.element pmkids := by
  have hoctets := b.length_octets
  have htotal : b.totalLen pmkids = b.octets.length + (pmkidField v pmkids).length := by
    simp [totalLen]
  have hucast : 8 ≤ v.ucast := by cases v <;> decide
  have hcount := toNat_count (n := b.octets.length) (by omega)
  have hne : UInt8.ofNat b.octets.length ≠ 0 := by
    intro hzero
    rw [hzero] at hcount
    change 0 = b.octets.length at hcount
    omega
  have hread : Mem.read b.octets 0 b.octets.length = b.octets := by
    rw [Mem.read_eq_take (by omega), List.drop_zero, List.take_length]
  unfold rtmpInsertRsnie
  rw [hcount, hread, if_pos hne, element, htotal, pmkidField]
  by_cases hv : v = .wpa2
  · subst hv
    rw [if_pos (b.read_oui.mpr rfl), length_pmkidOctets]
    by_cases hnil : pmkids = []
    · subst hnil
      have hextra : extraLen (UInt8.ofNat (16 * ([] : List (Octets 16)).length)) = 0 := by decide
      rw [hextra, if_neg (by decide), if_neg fun h => h.2 rfl]
      simp [WpaVersion.eid]
    · have hfield := length_pmkidField (v := .wpa2) ⟨rfl, hnil⟩
      have hpos : 0 < pmkids.length := List.length_pos_iff.mpr hnil
      obtain ⟨hextra, hshift, hlt⟩ := extraLen_ofNat hpos (by omega)
      have hids := toNat_count (n := 16 * pmkids.length) (by omega)
      have hlist : Mem.read (pmkidOctets pmkids) 0 (16 * pmkids.length) = pmkidOctets pmkids := by
        have hlen := length_pmkidOctets pmkids
        rw [← hlen, Mem.read_eq_take (by omega), List.drop_zero, List.take_length]
      rw [hextra, if_pos hlt, hshift, hids, hlist, if_pos ⟨rfl, hnil⟩, ← UInt8.ofNat_add,
        ← hfield, pmkidField, if_pos ⟨rfl, hnil⟩, CountedList.encode, List.length_map]
      simp [pmkidOctets, WpaVersion.eid]
  · rw [if_neg fun h => hv (b.read_oui.mp h), if_neg fun h => hv h.1]
    cases v with
    | wpa => simp [WpaVersion.eid]
    | wpa2 => exact absurd rfl hv

end RsnBody

/-! ## 8. What an interface is set to -/

inductive RsnCipher
  | wep40
  | tkip
  | ccmp
  | wep104
  deriving DecidableEq, Repr

inductive RsnAkm
  | wpaNone
  | ieee8021x
  | psk
  deriving DecidableEq, Repr

/-- The suite of a cipher. -/
def RsnCipher.suite (v : WpaVersion) : RsnCipher → Suite
  | wep40 => v.oui ++ [1]
  | tkip => v.oui ++ [2]
  | ccmp => v.oui ++ [4]
  | wep104 => v.oui ++ [5]

/-- The suite of an authentication. -/
def RsnAkm.suite (v : WpaVersion) : RsnAkm → Suite
  | wpaNone => v.oui ++ [0]
  | ieee8021x => v.oui ++ [1]
  | psk => v.oui ++ [2]

/-- TKIP, AES or both. -/
def IsCipher (wepStatus : WepStatus) : Prop :=
  wepStatus = .encryption2Enabled ∨ wepStatus = .encryption3Enabled ∨
    wepStatus = .encryption4Enabled

/-- The cipher of the group: a station's WEP, AES where it is alone, else TKIP. -/
def groupCipher (ad : RsnAdapter) (c : RsnContext) (wepStatus : WepStatus) : RsnCipher :=
  if ad.opMode = .sta ∧ ad.staCfg.groupCipher = .groupWep40Enabled then .wep40
  else if ad.opMode = .sta ∧ ad.staCfg.groupCipher = .groupWep104Enabled then .wep104
  else if wepStatus = .encryption3Enabled ∧ !c.bMixCipher then .ccmp
  else .tkip

/-- The pairwise ciphers: where both are set, those that are on for the version, and AES where TKIP
is not on. -/
def pairwiseCiphers (c : RsnContext) (v : WpaVersion) (wepStatus : WepStatus) : List RsnCipher :=
  (if wepStatus = .encryption2Enabled ∨
      wepStatus = .encryption4Enabled ∧ tkipOn c.flexibleCipher v then [.tkip] else []) ++
    if wepStatus = .encryption3Enabled ∨
      wepStatus = .encryption4Enabled ∧ (aesOn c.flexibleCipher v ∨ !tkipOn c.flexibleCipher v)
    then [.ccmp] else []

def akmOf : AuthMode → RsnAkm
  | .wpaNone => .wpaNone
  | .wpaPsk | .wpa2Psk | .wpa1PskWpa2Psk => .psk
  | _ => .ieee8021x

theorem RsnCipher.length_suite (v : WpaVersion) (x : RsnCipher) : (x.suite v).length = 4 := by
  cases v <;> cases x <;> rfl

theorem RsnCipher.take_suite (v : WpaVersion) (x : RsnCipher) : (x.suite v).take 3 = v.oui := by
  cases v <;> cases x <;> rfl

theorem RsnAkm.length_suite (v : WpaVersion) (x : RsnAkm) : (x.suite v).length = 4 := by
  cases v <;> cases x <;> rfl

theorem pairwiseCiphers_pos (c : RsnContext) (v : WpaVersion) {wepStatus : WepStatus}
    (h : IsCipher wepStatus) : 0 < (pairwiseCiphers c v wepStatus).length := by
  rcases h with rfl | rfl | rfl
  · simp [pairwiseCiphers]
  · simp [pairwiseCiphers]
  · cases hon : tkipOn c.flexibleCipher v <;> simp [pairwiseCiphers, hon]

/-- The body of the settings. -/
def settingsBody (ad : RsnAdapter) (c : RsnContext) (v : WpaVersion) (authMode : AuthMode)
    {wepStatus : WepStatus} (h : IsCipher wepStatus) : RsnBody v where
  group := (groupCipher ad c wepStatus).suite v
  pairwise := (pairwiseCiphers c v wepStatus).map (RsnCipher.suite v)
  akms := [(akmOf authMode).suite v]
  cap := rtmpMakeRsnIeCap ad v c.apidx
  group_length := RsnCipher.length_suite v _
  group_oui := RsnCipher.take_suite v _
  pairwise_length := by
    intro suite hsuite
    obtain ⟨x, -, rfl⟩ := List.mem_map.mp hsuite
    exact x.length_suite v
  pairwise_pos := by
    rw [List.length_map]
    exact pairwiseCiphers_pos c v h
  akms_length := by
    intro suite hsuite
    rw [List.mem_singleton.mp hsuite]
    exact RsnAkm.length_suite v _
  akms_pos := Nat.one_pos
  cap_length := by
    unfold rtmpMakeRsnIeCap
    split <;> rfl

/-- The suites of the body before a station puts in another one for the group. -/
theorem suitesFor_eq (c : RsnContext) (v : WpaVersion) {wepStatus : WepStatus}
    (h : IsCipher wepStatus) :
    suitesFor v wepStatus c.bMixCipher c.flexibleCipher =
      some ((if wepStatus = .encryption3Enabled ∧ !c.bMixCipher then RsnCipher.ccmp
          else RsnCipher.tkip).suite v,
        (pairwiseCiphers c v wepStatus).map (RsnCipher.suite v)) := by
  rcases h with rfl | rfl | rfl
  · rfl
  · cases hmix : c.bMixCipher <;> rfl
  · cases htkip : tkipOn c.flexibleCipher v <;> cases haes : aesOn c.flexibleCipher v <;>
      simp [suitesFor, pairwiseCiphers, htkip, haes, RsnCipher.suite, WpaVersion.tkip,
        WpaVersion.ccmp]

theorem groupOverride_suite (ad : RsnAdapter) (v : WpaVersion) (x : RsnCipher) :
    groupOverride ad v (x.suite v) =
      (if ad.opMode = .sta ∧ ad.staCfg.groupCipher = .groupWep40Enabled then RsnCipher.wep40
        else if ad.opMode = .sta ∧ ad.staCfg.groupCipher = .groupWep104Enabled then .wep104
        else x).suite v := by
  unfold groupOverride
  cases ad.opMode with
  | ap => simp
  | sta => cases ad.staCfg.groupCipher <;> rfl

/-- The versions a body is made for. -/
def MadeFor (v : WpaVersion) (authMode : AuthMode) : Prop :=
  v = primaryRsnIe authMode ∨ v = .wpa2 ∧ isMixed authMode

theorem akmFor_eq {v : WpaVersion} {authMode : AuthMode} (hmade : MadeFor v authMode)
    (hwpa : atLeastWpa authMode) : akmFor v authMode = some ((akmOf authMode).suite v) := by
  rcases hmade with rfl | ⟨rfl, hmixed⟩
  · cases authMode <;> first | rfl | exact absurd hwpa (by decide)
  · cases authMode <;> first | rfl | exact absurd hmixed (by decide)

/-- **The three functions put the body of the settings together.** -/
theorem bodyOf_eq (ad : RsnAdapter) (c : RsnContext) {v : WpaVersion} {authMode : AuthMode}
    {wepStatus : WepStatus} (h : IsCipher wepStatus) (hmade : MadeFor v authMode)
    (hwpa : atLeastWpa authMode) :
    bodyOf ad c v authMode wepStatus = (settingsBody ad c v authMode h).octets := by
  unfold bodyOf rtmpMakeRsnIeCipher rtmpMakeRsnIeAkm
  rw [suitesFor_eq c v h, akmFor_eq hmade hwpa]
  dsimp only
  rw [groupOverride_suite]
  simp [RsnBody.octets, settingsBody, CountedList.encode, groupCipher]

theorem atLeastWpa_of_modeSupported {up : Bool} {own : List AuthMode} {authMode : AuthMode}
    (hown : ∀ mode ∈ own, atLeastWpa mode) (h : modeSupported up own authMode) :
    atLeastWpa authMode := by
  unfold modeSupported at h
  split_ifs at h
  · exact h
  · exact hown authMode (List.contains_iff_mem.mp h)

/-- An interface is selected in a mode of WPA only, and makes two bodies only in a mixed one. -/
theorem selectInterface_some {ad : RsnAdapter} {authMode : AuthMode} {wepStatus : WepStatus}
    {apidx : Nat} {c : RsnContext} (h : selectInterface ad authMode wepStatus apidx = some c) :
    atLeastWpa authMode ∧ (c.bMixRsnIe → isMixed authMode) := by
  unfold selectInterface at h
  by_cases happ : minNetDeviceForApCli ≤ apidx
  · rw [if_pos happ] at h
    split_ifs at h with hmode
    cases h
    exact ⟨atLeastWpa_of_modeSupported (by decide) hmode.1, fun hmix => nomatch hmix⟩
  · rw [if_neg happ] at h
    cases hop : ad.opMode with
    | sta =>
      rw [hop] at h
      dsimp only at h
      by_cases hmode : modeSupported ad.staCfg.wpaSupplicantUp [.wpaPsk, .wpa2Psk, .wpaNone] authMode
      · rw [if_pos hmode] at h
        cases h
        exact ⟨atLeastWpa_of_modeSupported (by decide) hmode, fun hmix => nomatch hmix⟩
      · rw [if_neg hmode] at h
        exact nomatch h
    | ap =>
      rw [hop] at h
      dsimp only at h
      by_cases hmode : isApWpaMode authMode
      · rw [if_pos hmode] at h
        cases h
        refine ⟨?_, fun hmix => hmix⟩
        cases authMode <;> first | rfl | exact absurd hmode (by decide)
      · rw [if_neg hmode] at h
        exact nomatch h

/-! ## 9. The result -/

/-- With any PMKIDs that leave the length in its octet, the element of a body reads back. -/
def ReadsBack (v : WpaVersion) (group : RsnCipher) (pairwise : List RsnCipher) (akm : RsnAkm)
    (body : List UInt8) : Prop :=
  ∀ pmkids : List (Octets 16), (body ++ pmkidField v pmkids).length ≤ 255 →
    let frame := rtmpInsertRsnie body (UInt8.ofNat body.length) (RsnBody.pmkidOctets pmkids)
      (UInt8.ofNat (RsnBody.pmkidOctets pmkids).length)
    extracted frame .group = .ok (some [group.suite v]) ∧
      extracted frame .pairwise = .ok (some (pairwise.map (RsnCipher.suite v))) ∧
      extracted frame .akm = .ok (some [akm.suite v]) ∧
      extracted frame .pmkidList = .ok
        (if v = .wpa2 ∧ pmkids ≠ [] then some (pmkids.map List.Vector.toList) else none)

theorem readsBack_settingsBody (ad : RsnAdapter) (c : RsnContext) (v : WpaVersion)
    (authMode : AuthMode) {wepStatus : WepStatus} (h : IsCipher wepStatus) :
    ReadsBack v (groupCipher ad c wepStatus) (pairwiseCiphers c v wepStatus) (akmOf authMode)
      (settingsBody ad c v authMode h).octets := by
  intro pmkids hlen
  dsimp only
  rw [RsnBody.rtmpInsertRsnie_octets _ _ hlen]
  exact ⟨RsnBody.extracted_group hlen, RsnBody.extracted_pairwise hlen,
    RsnBody.extracted_akms hlen, RsnBody.extracted_pmkids hlen⟩

/-- **Nothing behind the element is reported, and the own elements read back**: whatever octets are
given as an element with their length, the pointer and what is counted at it stay inside; and in
the elements an interface makes for its settings are its ciphers, its authentication and the PMKIDs
that were put in. -/
theorem extractSuite_inside_and_readsBack :
    (∀ (rsnieLen : UInt32) (rsnie : Octets rsnieLen.toNat) (type : SuiteType),
      ExtractSuite.Inside rsnie.toList type
        (wpaExtractSuiteFromRsnIe rsnie.toList rsnieLen type)) ∧
    ∀ (ad : RsnAdapter) (authMode : AuthMode) (wepStatus : WepStatus) (apidx : Nat)
      (c : RsnContext), selectInterface ad authMode wepStatus apidx = some c →
      IsCipher wepStatus →
      ∃ primary secondary,
        rtmpMakeRsnIe ad authMode wepStatus apidx = some (primary, secondary) ∧
        ReadsBack (primaryRsnIe authMode) (groupCipher ad c wepStatus)
          (pairwiseCiphers c (primaryRsnIe authMode) wepStatus) (akmOf authMode) primary ∧
        ∀ body ∈ secondary, ReadsBack .wpa2 (groupCipher ad c wepStatus)
          (pairwiseCiphers c .wpa2 wepStatus) (akmOf authMode) body := by
  refine ⟨fun rsnieLen rsnie type =>
    ExtractSuite.inside_wpaExtractSuiteFromRsnIe rsnie.toList_length, ?_⟩
  intro ad authMode wepStatus apidx c hselect hcipher
  obtain ⟨hwpa, hmixed⟩ := selectInterface_some hselect
  refine ⟨_, _, by rw [rtmpMakeRsnIe, hselect]; rfl, ?_, ?_⟩
  · rw [bodyOf_eq ad c hcipher (.inl rfl) hwpa]
    exact readsBack_settingsBody ad c _ authMode hcipher
  · intro body hbody
    split_ifs at hbody with hmade
    · cases hbody
      rw [bodyOf_eq ad c hcipher (.inr ⟨rfl, hmixed hmade.2⟩) hwpa]
      exact readsBack_settingsBody ad c _ authMode hcipher
    · exact nomatch hbody

namespace Example

/-- An access point with one BSS for both versions and both ciphers. -/
def mixedBss : RsnAdapter where
  opMode := .ap
  bssidNum := 1
  maxMbssidNum := 1
  mbssid := fun _ => { wpaMixPairCipher := 0x0F, preAuth := true }
  apCli := { wpaSupplicantUp := false, bMixCipher := false }
  staCfg := { wpaSupplicantUp := false, bMixCipher := false, groupCipher := .encryption2Enabled }

end Example

theorem extractSuite_inside_and_readsBack_mixedBss :
    ∃ primary secondary,
      rtmpMakeRsnIe Example.mixedBss .wpa1PskWpa2Psk .encryption4Enabled 0 =
        some (primary, secondary) ∧
      ReadsBack .wpa .tkip [.tkip, .ccmp] .psk primary ∧
      ∀ body ∈ secondary, ReadsBack .wpa2 .tkip [.tkip, .ccmp] .psk body :=
  extractSuite_inside_and_readsBack.2 Example.mixedBss .wpa1PskWpa2Psk .encryption4Enabled 0
    { apidx := 0, bMixCipher := false, flexibleCipher := 0x0F, bMixRsnIe := true } rfl
    (.inr (.inr rfl))

end Mt7601.Wpa.MakeRsnIe
