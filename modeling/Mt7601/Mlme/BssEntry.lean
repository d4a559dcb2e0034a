/-
# Entries of the scan table

`BssEntrySet` and `BssCipherParse` of `common/mlme.c`: what a beacon or probe response makes of an
entry of the scan table. The entry is updated, not made anew: a hidden SSID leaves the old one, an
element that is missing leaves its octets behind a length of zero, and `bSES` is only ever set.

`BssCipherParse` reads the elements where they have been copied to, in `VarIEs`, and follows the
counts in them wherever they lead; `behind` is the memory behind the array. `cipherReach` says how
far it reads, and what stands farther off makes no difference (`bssCipherParse_congr`).
-/
import Mt7601.Lib.Octets

namespace Mt7601.Mlme

/-! ## 1. Constants -/

/-- `MAX_LEN_OF_SSID` -/
def maxLenOfSsid : Nat := 32
/-- `MAX_LEN_OF_SUPPORTED_RATES` -/
def maxLenOfSupportedRates : Nat := 12
/-- `MAX_VIE_LEN` -/
def maxVieLen : Nat := 1024
/-- `MAX_CUSTOM_LEN` -/
def maxCustomLen : Nat := 128

def ieCountry : UInt8 := 7
def ieRsn : UInt8 := 48
def ieWpa : UInt8 := 221

def wpaOui : List UInt8 := [0x00, 0x50, 0xf2, 0x01]
def rsnOui : List UInt8 := [0x00, 0x0f, 0xac]
def wpsOui : List UInt8 := [0x00, 0x50, 0xf2, 0x04]
def sesOui : List UInt8 := [0x00, 0x90, 0x4c]

/-- `BSS_ADHOC` and `BSS_INFRA` -/
def bssAdhoc : UInt8 := 0
def bssInfra : UInt8 := 1

/-- `NDIS_802_11_AUTHENTICATION_MODE` -/
abbrev AuthenticationMode := Nat

namespace AuthenticationMode

def open' : AuthenticationMode := 0
def wpa : AuthenticationMode := 3
def wpaPsk : AuthenticationMode := 4
def wpaNone : AuthenticationMode := 5
def wpa2 : AuthenticationMode := 6
def wpa2Psk : AuthenticationMode := 7
def max : AuthenticationMode := 10

end AuthenticationMode

/-- `NDIS_802_11_WEP_STATUS` -/
abbrev WepStatus := Nat

namespace WepStatus

def wepEnabled : WepStatus := 0
def encryption1Enabled : WepStatus := 0
def wepDisabled : WepStatus := 1
def encryption2Enabled : WepStatus := 4
def encryption3Enabled : WepStatus := 6
def groupWep40Enabled : WepStatus := 10
def groupWep104Enabled : WepStatus := 11

end WepStatus

/-! ## 2. The entry and the frame -/

/-- `CIPHER_SUITE` -/
structure CipherSuite where
  pairCipher : WepStatus := 0
  pairCipherAux : WepStatus := 0
  groupCipher : WepStatus := 0
  rsnCapability : Nat := 0
  bMixMode : Bool := false
  deriving DecidableEq

/-- What `BssCipherParse` derives. -/
structure Ciphers where
  bSES : Bool := false
  wpa : CipherSuite := {}
  wpa2 : CipherSuite := {}
  authMode : AuthenticationMode := 0
  authModeAux : AuthenticationMode := 0
  wepStatus : WepStatus := 0
  deriving DecidableEq

/-- `WPA_IE_` -/
structure IeBuffer where
  ieLen : UInt8 := 0
  ie : List UInt8 := List.replicate maxCustomLen 0
  deriving DecidableEq

/-- `EDCA_PARM`, `QOS_CAPABILITY_PARM` and `QBSS_LOAD_PARM`, of which only `bValid` is looked at. -/
structure Parm where
  bValid : Bool := false
  rest : List UInt8 := []

/-- `CF_PARM` -/
structure CfParm where
  bValid : Bool := false
  cfpCount : UInt16 := 0
  cfpPeriod : UInt16 := 0
  cfpMaxDuration : UInt16 := 0
  cfpDurRemaining : UInt16 := 0

/-- `BCN_IE_LIST`, as far as the scan table looks at it. -/
structure BcnIeList where
  bssid : List UInt8
  ssid : List UInt8 := List.replicate maxLenOfSsid 0
  ssidLen : UInt8 := 0
  bssType : UInt8 := bssInfra
  beaconPeriod : UInt16 := 100
  channel : UInt8
  atimWin : UInt16 := 0
  capabilityInfo : UInt16 := 0
  supRate : List UInt8 := List.replicate maxLenOfSupportedRates 0
  supRateLen : UInt8 := 0
  extRate : List UInt8 := List.replicate maxLenOfSupportedRates 0
  extRateLen : UInt8 := 0
  ckipFlag : UInt8 := 0
  timeStamp : List UInt8 := []
  cfParm : CfParm := {}
  edcaParm : Parm := {}
  qbssLoad : Parm := {}
  qosCapability : Parm := {}
  htCapabilityLen : UInt8 := 0
  htCapability : List UInt8 := []
  addHtInfoLen : UInt8 := 0
  addHtInfo : List UInt8 := []
  newExtChannelOffset : UInt8 := 0

/-- `BSS_ENTRY`, as far as the scan table looks at it; what is not given is zero. -/
structure BssEntry where
  bssid : List UInt8 := List.replicate 6 0
  channel : UInt8 := 0
  centralChannel : UInt8 := 0
  bssType : UInt8 := 0
  atimWin : UInt16 := 0
  beaconPeriod : UInt16 := 0
  supRate : List UInt8 := List.replicate maxLenOfSupportedRates 0
  supRateLen : UInt8 := 0
  extRate : List UInt8 := List.replicate maxLenOfSupportedRates 0
  extRateLen : UInt8 := 0
  htCapability : List UInt8 := List.replicate 26 0
  htCapabilityLen : UInt8 := 0
  addHtInfo : List UInt8 := List.replicate 22 0
  addHtInfoLen : UInt8 := 0
  newExtChanOffset : UInt8 := 0
  rssi : Int := 0
  privacy : Bool := false
  hidden : Bool := false
  capabilityInfo : UInt16 := 0
  cfpCount : UInt16 := 0
  cfpPeriod : UInt16 := 0
  cfpMaxDuration : UInt16 := 0
  cfpDurRemaining : UInt16 := 0
  ssidLen : UInt8 := 0
  ssid : List UInt8 := List.replicate maxLenOfSsid 0
  lastBeaconRxTime : Nat := 0
  ciphers : Ciphers := {}
  timestamp : List UInt8 := List.replicate 8 0
  varIELen : Nat := 0
  varIEs : List UInt8 := List.replicate maxVieLen 0
  varIeFromProbeRspLen : Nat := 0
  pVarIeFromProbRsp : Option Nat := none
  ckipFlag : UInt8 := 0
  edcaParm : Parm := {}
  qosCapability : Parm := {}
  qbssLoad : Parm := {}
  wpaIE : IeBuffer := {}
  rsnIE : IeBuffer := {}
  wpsIE : IeBuffer := {}
  countryString : List UInt8 := List.replicate 3 0
  bHasCountryIE : Bool := false

/-! ## 3. `BssCipherParse` -/

/-- A number of two octets, low octet first. -/
def leWord (mem : Nat → UInt8) (off : Nat) : Nat := (mem (off + 1)).toNat * 256 + (mem off).toNat

/-- `NdisEqualMemory` -/
def octetsAt (mem : Nat → UInt8) (off : Nat) (l : List UInt8) : Bool :=
  (List.range l.length).all fun i => mem (off + i) = l.getD i 0

theorem octetsAt_eq_true {mem : Nat → UInt8} {off : Nat} {l : List UInt8} :
    octetsAt mem off l = true ↔ ∀ k < l.length, mem (off + k) = l.getD k 0 := by
  simp only [octetsAt, List.all_eq_true, List.mem_range, decide_eq_true_eq]

/-- The group cipher of a selector; another type leaves the old one. -/
def groupCipherOf (type : UInt8) (old : WepStatus) : WepStatus :=
  if type = 1 then WepStatus.groupWep40Enabled
  else if type = 5 then WepStatus.groupWep104Enabled
  else if type = 2 then WepStatus.encryption2Enabled
  else if type = 4 then WepStatus.encryption3Enabled
  else old

/-- `TmpCipher` -/
def pairCipherOf (type : UInt8) : WepStatus :=
  if type = 1 ∨ type = 5 then WepStatus.encryption1Enabled
  else if type = 2 then WepStatus.encryption2Enabled
  else if type = 4 then WepStatus.encryption3Enabled
  else WepStatus.wepDisabled

/-- One pairwise cipher: the lower one goes to `PairCipherAux`. -/
def CipherSuite.addPairCipher (suite : CipherSuite) (type : UInt8) : CipherSuite :=
  let tmpCipher := pairCipherOf type
  if tmpCipher > suite.pairCipher then
    { suite with
      pairCipherAux := suite.pairCipher
      pairCipher := tmpCipher }
  else { suite with pairCipherAux := tmpCipher }

/-- The loop over the pairwise ciphers, 4 octets each. -/
def CipherSuite.addPairCiphers (suite : CipherSuite) (mem : Nat → UInt8) (off count : Nat) :
    CipherSuite :=
  (List.range count).foldl (fun suite i => suite.addPairCipher (mem (off + 4 * i + 3))) suite

/-- A mode goes to `AuthMode`, or to `AuthModeAux` if there is one already. -/
def Ciphers.addAuthMode (c : Ciphers) (mode : AuthenticationMode) : Ciphers :=
  if c.authMode = AuthenticationMode.open' then { c with authMode := mode }
  else { c with authModeAux := mode }

/-- `Patched bugs for old driver` -/
def CipherSuite.patchAux (suite : CipherSuite) : CipherSuite :=
  if suite.pairCipherAux = WepStatus.wepDisabled then
    { suite with pairCipherAux := suite.groupCipher }
  else suite

/-- Mixed mode, if the two ciphers differ. -/
def CipherSuite.checkMixMode (suite : CipherSuite) : CipherSuite :=
  if suite.groupCipher ≠ suite.pairCipher then { suite with bMixMode := true } else suite

/-- `case IE_WPA` -/
def Ciphers.parseWpa (c : Ciphers) (bssType : UInt8) (mem : Nat → UInt8) (off : Nat) : Ciphers :=
  if octetsAt mem (off + 2) sesOui && mem (off + 1) = 7 then { c with bSES := true }
  else if !octetsAt mem (off + 2) wpaOui then c
  else
    let count := leWord mem (off + 12)
    let wpa := { c.wpa with groupCipher := groupCipherOf (mem (off + 11)) c.wpa.groupCipher }
    let c := { c with wpa := wpa.addPairCiphers mem (off + 14) count }
    -- the number of AKM suites is skipped, and their selector's OUI
    let akm := mem (off + 14 + 4 * count + 5)
    let c :=
      if akm = 1 then c.addAuthMode AuthenticationMode.wpa
      else if akm = 2 then c.addAuthMode AuthenticationMode.wpaPsk
      else c
    let c :=
      if bssType = bssAdhoc then
        { c with
          authMode := AuthenticationMode.wpaNone
          authModeAux := AuthenticationMode.wpaNone
          wepStatus := c.wpa.groupCipher
          wpa := c.wpa.patchAux }
      else { c with wepStatus := c.wpa.pairCipher }
    { c with wpa := c.wpa.checkMixMode }

/-- The loop over the AKM suites, which ends at the first that is none of RSN; with where it ends. -/
def Ciphers.addAkms (mem : Nat → UInt8) : Nat → Ciphers → Nat → Ciphers × Nat
  | 0, c, off => (c, off)
  | count + 1, c, off =>
    if octetsAt mem off rsnOui then
      let type := mem (off + 3)
      let mode :=
        if type = 0 then AuthenticationMode.wpaNone
        else if type = 1 then AuthenticationMode.wpa2
        else if type = 2 then AuthenticationMode.wpa2Psk
        else AuthenticationMode.max
      addAkms mem count (c.addAuthMode mode) (off + 4)
    else (c, off)

/-- `case IE_RSN` -/
def Ciphers.parseRsn (c : Ciphers) (bssType : UInt8) (mem : Nat → UInt8) (off : Nat) : Ciphers :=
  if leWord mem (off + 2) ≠ 1 then c
  else if !octetsAt mem (off + 4) rsnOui then c
  else
    let count := leWord mem (off + 8)
    let wpa2 := { c.wpa2 with groupCipher := groupCipherOf (mem (off + 7)) c.wpa2.groupCipher }
    let c := { c with wpa2 := wpa2.addPairCiphers mem (off + 10) count }
    let akms := off + 10 + 4 * count
    let (c, off) := c.addAkms mem (leWord mem akms) (akms + 2)
    let c :=
      if bssType = bssAdhoc then
        let wpa :=
          { c.wpa with
            pairCipherAux := c.wpa2.pairCipherAux
            groupCipher := c.wpa2.groupCipher }
        { c with wpa := wpa.patchAux }
      else c
    let c := { c with wepStatus := c.wpa2.pairCipher }
    let wpa2 := { c.wpa2 with rsnCapability := leWord mem off }
    { c with wpa2 := wpa2.checkMixMode }

/-- The loop over the elements. Each takes two octets at least, so that as many passes as there are
octets are enough. -/
def Ciphers.parseElements (bssType : UInt8) (mem : Nat → UInt8) (varIELen : Nat) :
    Nat → Ciphers → Nat → Ciphers
  | 0, c, _ => c
  | passes + 1, c, off =>
    if off < varIELen then
      let eid := mem off
      let c :=
        if eid = ieWpa then c.parseWpa bssType mem off
        else if eid = ieRsn then c.parseRsn bssType mem off
        else c
      parseElements bssType mem varIELen passes c (off + (mem (off + 1)).toNat + 2)
    else c

/-- What `BssCipherParse` starts from; `bSES` is not among it. -/
def Ciphers.init (bSES privacy : Bool) : Ciphers where
  bSES := bSES
  wpa :=
    { pairCipher := WepStatus.wepDisabled
      pairCipherAux := WepStatus.wepDisabled
      groupCipher := WepStatus.wepDisabled }
  wpa2 :=
    { pairCipher := WepStatus.wepDisabled
      pairCipherAux := WepStatus.wepDisabled
      groupCipher := WepStatus.wepDisabled }
  authMode := AuthenticationMode.open'
  authModeAux := AuthenticationMode.open'
  wepStatus := if privacy then WepStatus.wepEnabled else WepStatus.wepDisabled

/-- `VarIEs` and what stands behind it in memory. -/
def BssEntry.vieMem (pBss : BssEntry) (behind : List UInt8) (i : Nat) : UInt8 :=
  (pBss.varIEs ++ behind).getD i 0

/-- `BssCipherParse` -/
def bssCipherParse (behind : List UInt8) (pBss : BssEntry) : BssEntry :=
  { pBss with
    ciphers :=
      Ciphers.parseElements pBss.bssType (pBss.vieMem behind) pBss.varIELen pBss.varIELen
        (.init pBss.ciphers.bSES pBss.privacy) 0 }

/-! ### How far it reads -/

/-- Two memories with the same octets in front of `n`. -/
def AgreeBelow (n : Nat) (mem mem' : Nat → UInt8) : Prop := ∀ k < n, mem k = mem' k

def wpaReach (mem : Nat → UInt8) (off : Nat) : Nat :=
  if octetsAt mem (off + 2) sesOui && mem (off + 1) = 7 then off + 5
  else if !octetsAt mem (off + 2) wpaOui then off + 6
  else off + 14 + 4 * leWord mem (off + 12) + 6

/-- From the first AKM suite to the RSN capabilities, which are read where the loop ends. -/
def akmReach (mem : Nat → UInt8) : Nat → Nat → Nat
  | 0, off => off + 2
  | count + 1, off => if octetsAt mem off rsnOui then akmReach mem count (off + 4) else off + 3

def rsnReach (mem : Nat → UInt8) (off : Nat) : Nat :=
  if leWord mem (off + 2) ≠ 1 then off + 4
  else if !octetsAt mem (off + 4) rsnOui then off + 7
  else
    let akms := off + 10 + 4 * leWord mem (off + 8)
    akmReach mem (leWord mem akms) (akms + 2)

/-- How far `BssCipherParse` reads because of the element at `off`. -/
def elementReach (mem : Nat → UInt8) (off : Nat) : Nat :=
  if mem off = ieWpa then wpaReach mem off
  else if mem off = ieRsn then rsnReach mem off
  else off + 2

/-- How far it reads from the element at `off` on. -/
def cipherReach (mem : Nat → UInt8) (varIELen : Nat) : Nat → Nat → Nat
  | 0, _ => 0
  | passes + 1, off =>
    if off < varIELen then
      max (elementReach mem off)
        (cipherReach mem varIELen passes (off + (mem (off + 1)).toNat + 2))
    else 0

section

variable {n : Nat} {mem mem' : Nat → UInt8}

theorem AgreeBelow.mono {m : Nat} (h : AgreeBelow n mem mem') (hle : m ≤ n) :
    AgreeBelow m mem mem' := fun k hk => h k (lt_of_lt_of_le hk hle)

theorem octetsAt_congr (h : AgreeBelow n mem mem') {off : Nat} {l : List UInt8}
    (hle : off + l.length ≤ n) : octetsAt mem off l = octetsAt mem' off l := by
  unfold octetsAt
  rw [Bool.eq_iff_iff, List.all_eq_true, List.all_eq_true]
  refine forall₂_congr fun i hi => ?_
  rw [h (off + i) (by have := List.mem_range.mp hi; omega)]

theorem leWord_congr (h : AgreeBelow n mem mem') {off : Nat} (hle : off + 2 ≤ n) :
    leWord mem off = leWord mem' off := by
  unfold leWord
  rw [h off (by omega), h (off + 1) (by omega)]

theorem addPairCiphers_congr (h : AgreeBelow n mem mem') (suite : CipherSuite) {off count : Nat}
    (hle : off + 4 * count ≤ n) :
    suite.addPairCiphers mem off count = suite.addPairCiphers mem' off count := by
  unfold CipherSuite.addPairCiphers
  refine List.foldl_ext _ _ _ fun suite i hi => ?_
  rw [h (off + 4 * i + 3) (by have := List.mem_range.mp hi; omega)]

theorem le_akmReach (mem : Nat → UInt8) (count off : Nat) : off + 2 ≤ akmReach mem count off := by
  induction count generalizing off with
  | zero => exact le_rfl
  | succ count ih =>
    unfold akmReach
    split
    · have := ih (off + 4)
      omega
    · omega

/-- The RSN capabilities stand where the loop over the AKM suites ends. -/
theorem addAkms_end_le (mem : Nat → UInt8) (count : Nat) (c : Ciphers) (off : Nat) :
    (c.addAkms mem count off).2 + 2 ≤ akmReach mem count off := by
  induction count generalizing c off with
  | zero => exact le_rfl
  | succ count ih =>
    unfold Ciphers.addAkms akmReach
    split
    · exact ih _ _
    · change off + 2 ≤ off + 3
      omega

theorem addAkms_congr (h : AgreeBelow n mem mem') {count : Nat} (c : Ciphers) {off : Nat}
    (hle : akmReach mem count off ≤ n) :
    c.addAkms mem count off = c.addAkms mem' count off := by
  induction count generalizing c off with
  | zero => rfl
  | succ count ih =>
    have hoff : off + 3 ≤ akmReach mem (count + 1) off := by
      unfold akmReach
      split
      · have := le_akmReach mem count (off + 4)
        omega
      · exact le_rfl
    have hoctets : octetsAt mem off rsnOui = octetsAt mem' off rsnOui :=
      octetsAt_congr h (hoff.trans hle)
    unfold Ciphers.addAkms
    rw [← hoctets]
    unfold akmReach at hle
    split
    · rename_i hrsn
      rw [if_pos hrsn] at hle
      have htype : mem (off + 3) = mem' (off + 3) := by
        have := le_akmReach mem count (off + 4)
        exact h _ (by omega)
      dsimp only
      rw [htype]
      exact ih _ hle
    · rfl

theorem le_wpaReach (mem : Nat → UInt8) (off : Nat) : off + 5 ≤ wpaReach mem off := by
  unfold wpaReach
  split_ifs <;> omega

theorem le_rsnReach (mem : Nat → UInt8) (off : Nat) : off + 4 ≤ rsnReach mem off := by
  unfold rsnReach
  have := le_akmReach mem (leWord mem (off + 10 + 4 * leWord mem (off + 8)))
    (off + 10 + 4 * leWord mem (off + 8) + 2)
  dsimp only
  split_ifs <;> omega

theorem parseWpa_congr (c : Ciphers) (bssType : UInt8) {off : Nat}
    (h : AgreeBelow (wpaReach mem off) mem mem') :
    c.parseWpa bssType mem off = c.parseWpa bssType mem' off := by
  have hle : off + 5 ≤ wpaReach mem off := le_wpaReach mem off
  have hses : octetsAt mem (off + 2) sesOui = octetsAt mem' (off + 2) sesOui :=
    octetsAt_congr h hle
  have hlen : mem (off + 1) = mem' (off + 1) := h _ (by omega)
  unfold Ciphers.parseWpa
  rw [← hses, ← hlen]
  by_cases hfirst : (octetsAt mem (off + 2) sesOui && decide (mem (off + 1) = 7)) = true
  · rw [if_pos hfirst, if_pos hfirst]
  rw [if_neg hfirst, if_neg hfirst]
  unfold wpaReach at h
  rw [if_neg hfirst] at h
  have hoff : off + 6 ≤ if (!octetsAt mem (off + 2) wpaOui) = true then off + 6
      else off + 14 + 4 * leWord mem (off + 12) + 6 := by split_ifs <;> omega
  have hwpa : octetsAt mem (off + 2) wpaOui = octetsAt mem' (off + 2) wpaOui :=
    octetsAt_congr h hoff
  rw [← hwpa]
  by_cases hsecond : (!octetsAt mem (off + 2) wpaOui) = true
  · rw [if_pos hsecond, if_pos hsecond]
  rw [if_neg hsecond, if_neg hsecond]
  rw [if_neg hsecond] at h
  have hcount : leWord mem (off + 12) = leWord mem' (off + 12) := leWord_congr h (by omega)
  have hgroup : mem (off + 11) = mem' (off + 11) := h _ (by omega)
  have hakm : mem (off + 14 + 4 * leWord mem (off + 12) + 5) =
      mem' (off + 14 + 4 * leWord mem (off + 12) + 5) := h _ (by omega)
  have hpair : ∀ suite : CipherSuite,
      suite.addPairCiphers mem (off + 14) (leWord mem (off + 12)) =
        suite.addPairCiphers mem' (off + 14) (leWord mem (off + 12)) := fun suite =>
    addPairCiphers_congr h suite (by omega)
  rw [← hcount]
  simp only [hgroup, hpair, hakm]

theorem parseRsn_congr (c : Ciphers) (bssType : UInt8) {off : Nat}
    (h : AgreeBelow (rsnReach mem off) mem mem') :
    c.parseRsn bssType mem off = c.parseRsn bssType mem' off := by
  have hversion : leWord mem (off + 2) = leWord mem' (off + 2) :=
    leWord_congr h (le_rsnReach mem off)
  unfold Ciphers.parseRsn
  rw [← hversion]
  by_cases hfirst : leWord mem (off + 2) ≠ 1
  · rw [if_pos hfirst, if_pos hfirst]
  rw [if_neg hfirst, if_neg hfirst]
  unfold rsnReach at h
  rw [if_neg hfirst] at h
  dsimp only at h
  generalize hakms : off + 10 + 4 * leWord mem (off + 8) = akms at h
  have hreach : akms + 4 ≤ akmReach mem (leWord mem akms) (akms + 2) := le_akmReach _ _ _
  have hoff : off + 7 ≤ if (!octetsAt mem (off + 4) rsnOui) = true then off + 7
      else akmReach mem (leWord mem akms) (akms + 2) := by split_ifs <;> omega
  have hrsn : octetsAt mem (off + 4) rsnOui = octetsAt mem' (off + 4) rsnOui :=
    octetsAt_congr h hoff
  rw [← hrsn]
  by_cases hsecond : (!octetsAt mem (off + 4) rsnOui) = true
  · rw [if_pos hsecond, if_pos hsecond]
  rw [if_neg hsecond, if_neg hsecond]
  rw [if_neg hsecond] at h
  have hcount : leWord mem (off + 8) = leWord mem' (off + 8) := leWord_congr h (by omega)
  have hgroup : mem (off + 7) = mem' (off + 7) := h _ (by omega)
  have hpair : ∀ suite : CipherSuite,
      suite.addPairCiphers mem (off + 10) (leWord mem (off + 8)) =
        suite.addPairCiphers mem' (off + 10) (leWord mem (off + 8)) := fun suite =>
    addPairCiphers_congr h suite (by omega)
  have hakm : leWord mem akms = leWord mem' akms := leWord_congr h (by omega)
  have hloop : ∀ c : Ciphers, c.addAkms mem (leWord mem akms) (akms + 2) =
      c.addAkms mem' (leWord mem akms) (akms + 2) := fun c => addAkms_congr h c le_rfl
  have hcapability : ∀ c : Ciphers,
      leWord mem (c.addAkms mem' (leWord mem akms) (akms + 2)).2 =
        leWord mem' (c.addAkms mem' (leWord mem akms) (akms + 2)).2 := by
    intro c
    rw [← hloop]
    exact leWord_congr h (addAkms_end_le _ _ _ _)
  rw [← hcount]
  simp only [hakms, hgroup, hpair, ← hakm, hloop, hcapability]

/-- **What stands behind its reach makes no difference** to the elements. -/
theorem parseElements_congr (bssType : UInt8) (varIELen passes : Nat) (c : Ciphers) (off : Nat)
    (h : AgreeBelow (cipherReach mem varIELen passes off) mem mem') :
    c.parseElements bssType mem varIELen passes off =
      c.parseElements bssType mem' varIELen passes off := by
  induction passes generalizing c off with
  | zero => rfl
  | succ passes ih =>
    unfold Ciphers.parseElements
    split
    · rename_i hoff
      unfold cipherReach at h
      rw [if_pos hoff] at h
      have hhere : AgreeBelow (elementReach mem off) mem mem' := h.mono (le_max_left _ _)
      have hlater := h.mono (le_max_right _ _)
      have hreach : off + 2 ≤ elementReach mem off := by
        have hwpa := le_wpaReach mem off
        have hrsn := le_rsnReach mem off
        unfold elementReach
        split_ifs <;> omega
      have heid : mem off = mem' off := hhere _ (by omega)
      have hlen : mem (off + 1) = mem' (off + 1) := hhere _ (by omega)
      have helement :
          (if mem off = ieWpa then c.parseWpa bssType mem off
            else if mem off = ieRsn then c.parseRsn bssType mem off else c) =
          (if mem' off = ieWpa then c.parseWpa bssType mem' off
            else if mem' off = ieRsn then c.parseRsn bssType mem' off else c) := by
        unfold elementReach at hhere
        rw [← heid]
        split_ifs at hhere ⊢
        · exact parseWpa_congr c bssType hhere
        · exact parseRsn_congr c bssType hhere
        · rfl
      dsimp only
      rw [helement, ← hlen]
      exact ih _ _ hlater
    · rfl

end

/-- How far `BssCipherParse` reads. -/
def BssEntry.reach (pBss : BssEntry) (behind : List UInt8) : Nat :=
  cipherReach (pBss.vieMem behind) pBss.varIELen pBss.varIELen 0

/-! ### The mark of a SES element -/

/-- One of the elements sets `bSES`. -/
def hasSes (mem : Nat → UInt8) (varIELen : Nat) : Nat → Nat → Bool
  | 0, _ => false
  | passes + 1, off =>
    if off < varIELen then
      (mem off = ieWpa && octetsAt mem (off + 2) sesOui && mem (off + 1) = 7) ||
        hasSes mem varIELen passes (off + (mem (off + 1)).toNat + 2)
    else false

def Ciphers.orSes (c : Ciphers) (b : Bool) : Ciphers := { c with bSES := c.bSES || b }

theorem withWpa_orSes (c : Ciphers) (b : Bool) (wpa : CipherSuite) :
    ({ c.orSes b with wpa := wpa } : Ciphers) = ({ c with wpa := wpa } : Ciphers).orSes b := rfl

theorem withWpa2_orSes (c : Ciphers) (b : Bool) (wpa2 : CipherSuite) :
    ({ c.orSes b with wpa2 := wpa2 } : Ciphers) = ({ c with wpa2 := wpa2 } : Ciphers).orSes b := rfl

theorem addAuthMode_orSes (c : Ciphers) (b : Bool) (mode : AuthenticationMode) :
    (c.orSes b).addAuthMode mode = (c.addAuthMode mode).orSes b := by
  unfold Ciphers.addAuthMode Ciphers.orSes
  dsimp only
  split_ifs <;> rfl

theorem addAuthMode_bSES (c : Ciphers) (mode : AuthenticationMode) :
    (c.addAuthMode mode).bSES = c.bSES := by
  unfold Ciphers.addAuthMode
  split_ifs <;> rfl

theorem addAkms_orSes (mem : Nat → UInt8) (count : Nat) (c : Ciphers) (b : Bool) (off : Nat) :
    (c.orSes b).addAkms mem count off =
      ((c.addAkms mem count off).1.orSes b, (c.addAkms mem count off).2) := by
  induction count generalizing c off with
  | zero => rfl
  | succ count ih =>
    unfold Ciphers.addAkms
    split
    · dsimp only
      rw [addAuthMode_orSes, ih]
    · rfl

theorem addAkms_bSES (mem : Nat → UInt8) (count : Nat) (c : Ciphers) (off : Nat) :
    (c.addAkms mem count off).1.bSES = c.bSES := by
  induction count generalizing c off with
  | zero => rfl
  | succ count ih =>
    unfold Ciphers.addAkms
    split
    · dsimp only
      rw [ih, addAuthMode_bSES]
    · rfl

/-- `bSES` takes no part in what the parser does with the rest. -/
theorem parseWpa_orSes (c : Ciphers) (b : Bool) (bssType : UInt8) (mem : Nat → UInt8)
    (off : Nat) : (c.orSes b).parseWpa bssType mem off = (c.parseWpa bssType mem off).orSes b := by
  unfold Ciphers.parseWpa
  split_ifs with hses hwpa hadhoc
  · unfold Ciphers.orSes
    simp
  · rfl
  · dsimp only
    rw [withWpa_orSes, addAuthMode_orSes, addAuthMode_orSes]
    split_ifs <;> rfl
  · dsimp only
    rw [withWpa_orSes, addAuthMode_orSes, addAuthMode_orSes]
    split_ifs <;> rfl

theorem parseWpa_bSES (c : Ciphers) (bssType : UInt8) (mem : Nat → UInt8) (off : Nat) :
    (c.parseWpa bssType mem off).bSES =
      (c.bSES || (octetsAt mem (off + 2) sesOui && decide (mem (off + 1) = 7))) := by
  unfold Ciphers.parseWpa
  split_ifs with hses hwpa hadhoc
  · rw [hses, Bool.or_true]
  · rw [Bool.eq_false_iff.mpr hses, Bool.or_false]
  · rw [Bool.eq_false_iff.mpr hses, Bool.or_false]
    dsimp only
    split_ifs
    · exact addAuthMode_bSES _ _
    · exact addAuthMode_bSES _ _
    · rfl
  · rw [Bool.eq_false_iff.mpr hses, Bool.or_false]
    dsimp only
    split_ifs
    · exact addAuthMode_bSES _ _
    · exact addAuthMode_bSES _ _
    · rfl

theorem parseRsn_orSes (c : Ciphers) (b : Bool) (bssType : UInt8) (mem : Nat → UInt8)
    (off : Nat) : (c.orSes b).parseRsn bssType mem off = (c.parseRsn bssType mem off).orSes b := by
  unfold Ciphers.parseRsn
  split_ifs with hversion hrsn hadhoc
  · rfl
  · rfl
  · dsimp only
    rw [withWpa2_orSes, addAkms_orSes]
    rfl
  · dsimp only
    rw [withWpa2_orSes, addAkms_orSes]
    rfl

theorem parseRsn_bSES (c : Ciphers) (bssType : UInt8) (mem : Nat → UInt8) (off : Nat) :
    (c.parseRsn bssType mem off).bSES = c.bSES := by
  unfold Ciphers.parseRsn
  split_ifs with hversion hrsn hadhoc
  · rfl
  · rfl
  · exact addAkms_bSES mem _ _ _
  · exact addAkms_bSES mem _ _ _

theorem parseElements_orSes (bssType : UInt8) (mem : Nat → UInt8) (varIELen passes : Nat)
    (c : Ciphers) (b : Bool) (off : Nat) :
    (c.orSes b).parseElements bssType mem varIELen passes off =
      (c.parseElements bssType mem varIELen passes off).orSes b := by
  induction passes generalizing c off with
  | zero => rfl
  | succ passes ih =>
    unfold Ciphers.parseElements
    split
    · dsimp only
      rw [← ih]
      congr 1
      split_ifs
      · exact parseWpa_orSes c b bssType mem off
      · exact parseRsn_orSes c b bssType mem off
      · rfl
    · rfl

theorem parseElements_bSES (bssType : UInt8) (mem : Nat → UInt8) (varIELen passes : Nat)
    (c : Ciphers) (off : Nat) :
    (c.parseElements bssType mem varIELen passes off).bSES =
      (c.bSES || hasSes mem varIELen passes off) := by
  induction passes generalizing c off with
  | zero => rw [hasSes, Bool.or_false]; rfl
  | succ passes ih =>
    unfold Ciphers.parseElements hasSes
    split
    · dsimp only
      rw [ih, ← Bool.or_assoc]
      congr 1
      split_ifs with hwpa hrsn
      · rw [parseWpa_bSES]
        simp [hwpa]
      · rw [parseRsn_bSES]
        simp [hwpa]
      · simp [hwpa]
    · rw [Bool.or_false]

/-- What the parser makes of an entry, apart from the `bSES` it already has. -/
theorem bssCipherParse_eq_orSes (behind : List UInt8) (pBss : BssEntry) :
    (bssCipherParse behind pBss).ciphers =
      (Ciphers.parseElements pBss.bssType (pBss.vieMem behind) pBss.varIELen pBss.varIELen
        (.init false pBss.privacy) 0).orSes pBss.ciphers.bSES := by
  rw [← parseElements_orSes]
  rfl

/-- **`BssCipherParse` depends on nothing behind its reach**, nor on the old `bSES` where an element
sets it. -/
theorem bssCipherParse_congr {behind behind' : List UInt8} {pBss pBss' : BssEntry}
    (hmem : AgreeBelow (pBss.reach behind) (pBss.vieMem behind) (pBss'.vieMem behind'))
    (hlen : pBss'.varIELen = pBss.varIELen) (htype : pBss'.bssType = pBss.bssType)
    (hprivacy : pBss'.privacy = pBss.privacy)
    (hses : pBss'.ciphers.bSES = pBss.ciphers.bSES ∨
      hasSes (pBss.vieMem behind) pBss.varIELen pBss.varIELen 0 = true) :
    (bssCipherParse behind pBss).ciphers = (bssCipherParse behind' pBss').ciphers := by
  rw [bssCipherParse_eq_orSes, bssCipherParse_eq_orSes, hlen, htype, hprivacy,
    ← parseElements_congr _ _ _ _ _ hmem]
  rcases hses with heq | hses
  · rw [heq]
  · unfold Ciphers.orSes
    rw [parseElements_bSES, hses, Bool.or_true, Bool.true_or, Bool.true_or]

/-! ## 4. `BssEntrySet` -/

/-- `NdisEqualMemory(.., ZeroSsid, ..)` -/
def isZeroSsid (ssid : List UInt8) (ssidLen : UInt8) : Bool :=
  Mem.read ssid 0 ssidLen.toNat = List.replicate ssidLen.toNat 0

/-- The SSID: a hidden one leaves the old one, unless that is hidden as well. -/
def BssEntry.setSsid (pBss : BssEntry) (ie : BcnIeList) : BssEntry :=
  let pBss := { pBss with hidden := true }
  if ie.ssidLen > 0 then
    if isZeroSsid ie.ssid ie.ssidLen then pBss
    else
      { pBss with
        ssid := Mem.write (List.replicate maxLenOfSsid 0) 0 (Mem.read ie.ssid 0 ie.ssidLen.toNat)
        ssidLen := ie.ssidLen
        hidden := false }
  else if isZeroSsid pBss.ssid pBss.ssidLen then
    { pBss with
      ssid := List.replicate maxLenOfSsid 0
      ssidLen := 0 }
  else pBss

/-- The fields in the beacon's body, and the time. -/
def BssEntry.setFixed (pBss : BssEntry) (ie : BcnIeList) (upTime : Nat) : BssEntry :=
  let pBss := { pBss with bssType := ie.bssType, beaconPeriod := ie.beaconPeriod }
  let pBss :=
    if ie.bssType = bssInfra then
      if ie.cfParm.bValid then
        { pBss with
          cfpCount := ie.cfParm.cfpCount
          cfpPeriod := ie.cfParm.cfpPeriod
          cfpMaxDuration := ie.cfParm.cfpMaxDuration
          cfpDurRemaining := ie.cfParm.cfpDurRemaining }
      else pBss
    else { pBss with atimWin := ie.atimWin }
  { pBss with
    lastBeaconRxTime := upTime
    capabilityInfo := ie.capabilityInfo
    privacy := ie.capabilityInfo &&& 0x0010 ≠ 0 }

/-- The rates. `SupRateLen` is taken over also where the rates themselves are cut. -/
def BssEntry.setRates (pBss : BssEntry) (ie : BcnIeList) : BssEntry :=
  let supRateLen := min ie.supRateLen.toNat maxLenOfSupportedRates
  let extRateLen := min ie.extRateLen.toNat maxLenOfSupportedRates
  { pBss with
    supRate := Mem.write pBss.supRate 0 (Mem.read ie.supRate 0 supRateLen)
    supRateLen := ie.supRateLen
    extRate := Mem.write pBss.extRate 0 (Mem.read ie.extRate 0 extRateLen)
    newExtChanOffset := ie.newExtChannelOffset
    extRateLen := UInt8.ofNat extRateLen }

/-- The channel, the signal and the elements as they came. -/
def BssEntry.setVie (pBss : BssEntry) (ie : BcnIeList) (rssi : Int) (lengthVIE : Nat)
    (pVIE : List UInt8) : BssEntry :=
  { pBss with
    channel := ie.channel
    centralChannel := ie.channel
    rssi := rssi
    ckipFlag := ie.ckipFlag
    timestamp := Mem.read ie.timeStamp 0 8
    varIELen := lengthVIE
    varIEs := if lengthVIE ≠ 0 then Mem.write pBss.varIEs 0 (Mem.read pVIE 0 lengthVIE)
      else pBss.varIEs }

/-- The HT elements. `getCentCh` is `get_cent_ch_by_htinfo`. -/
def BssEntry.setHt (getCentCh : List UInt8 → List UInt8 → UInt8) (pBss : BssEntry)
    (ie : BcnIeList) : BssEntry :=
  let pBss := { pBss with addHtInfoLen := 0, htCapabilityLen := 0 }
  if ie.htCapabilityLen > 0 then
    let pBss :=
      { pBss with
        htCapabilityLen := ie.htCapabilityLen
        htCapability :=
          Mem.write pBss.htCapability 0 (Mem.read ie.htCapability 0 ie.htCapabilityLen.toNat) }
    if ie.addHtInfoLen > 0 then
      { pBss with
        addHtInfoLen := ie.addHtInfoLen
        addHtInfo := Mem.write pBss.addHtInfo 0 (Mem.read ie.addHtInfo 0 ie.addHtInfoLen.toNat)
        centralChannel := getCentCh ie.addHtInfo ie.htCapability }
    else pBss
  else pBss

/-- QOS -/
def BssEntry.setQos (pBss : BssEntry) (ie : BcnIeList) : BssEntry :=
  let update := fun old new : Parm => if new.bValid then new else { old with bValid := false }
  { pBss with
    edcaParm := update pBss.edcaParm ie.edcaParm
    qosCapability := update pBss.qosCapability ie.qosCapability
    qbssLoad := update pBss.qbssLoad ie.qbssLoad }

/-- An element into its buffer, unless it is too long. -/
def IeBuffer.set (buf : IeBuffer) (vie : Nat → UInt8) (off : Nat) : IeBuffer :=
  let len := (vie (off + 1)).toNat + 2
  if len > maxCustomLen then { buf with ieLen := 0 }
  else
    { ieLen := UInt8.ofNat len
      ie := Mem.write buf.ie 0 ((List.range len).map fun i => vie (off + i)) }

/-- An element of the frame. -/
def BssEntry.setIe (pBss : BssEntry) (vie : Nat → UInt8) (off : Nat) : BssEntry :=
  let eid := vie off
  if eid = ieWpa then
    if octetsAt vie (off + 2) wpsOui then { pBss with wpsIE := pBss.wpsIE.set vie off }
    else if octetsAt vie (off + 2) wpaOui then { pBss with wpaIE := pBss.wpaIE.set vie off }
    else pBss
  else if eid = ieRsn then
    if octetsAt vie (off + 4) rsnOui then { pBss with rsnIE := pBss.rsnIE.set vie off }
    else pBss
  else if eid = ieCountry then
    { pBss with
      countryString := (List.range 3).map fun i => vie (off + 2 + i)
      bHasCountryIE := true }
  else pBss

/-- The loop over the elements of the frame. -/
def BssEntry.setIesFrom (vie : Nat → UInt8) (lengthVIE : Nat) : Nat → BssEntry → Nat → BssEntry
  | 0, pBss, _ => pBss
  | passes + 1, pBss, length =>
    if length + 2 + (vie (length + 1)).toNat ≤ lengthVIE then
      setIesFrom vie lengthVIE passes (pBss.setIe vie length)
        (length + 2 + (vie (length + 1)).toNat)
    else pBss

def BssEntry.setIes (pBss : BssEntry) (vie : Nat → UInt8) (lengthVIE : Nat) : BssEntry :=
  let pBss :=
    { pBss with
      wpaIE := {}
      rsnIE := {}
      wpsIE := {}
      countryString := List.replicate 3 0
      bHasCountryIE := false }
  pBss.setIesFrom vie lengthVIE lengthVIE 0

/-- A beacon or probe response: `pVIE` is the memory from the first element on. -/
structure Beacon where
  ieList : BcnIeList
  rssi : Int := 0
  lengthVIE : Nat := 0
  pVIE : List UInt8 := []
  upTime : Nat := 0

/-- `BssEntrySet` -/
def bssEntrySet (getCentCh : List UInt8 → List UInt8 → UInt8) (behind : List UInt8)
    (pBss : BssEntry) (b : Beacon) : BssEntry :=
  let pBss := { pBss with bssid := b.ieList.bssid }
  let pBss := pBss.setSsid b.ieList
  let pBss := pBss.setFixed b.ieList b.upTime
  let pBss := pBss.setRates b.ieList
  let pBss := pBss.setVie b.ieList b.rssi b.lengthVIE b.pVIE
  let pBss := pBss.setHt getCentCh b.ieList
  let pBss := bssCipherParse behind pBss
  let pBss := pBss.setQos b.ieList
  pBss.setIes (fun i => b.pVIE.getD i 0) b.lengthVIE

/-! ## 5. What each part writes -/

/-- The SSID: nothing else. -/
theorem setSsid_eq (pBss : BssEntry) (ie : BcnIeList) :
    pBss.setSsid ie =
      { pBss with
        hidden := (pBss.setSsid ie).hidden
        ssid := (pBss.setSsid ie).ssid
        ssidLen := (pBss.setSsid ie).ssidLen } := by
  unfold BssEntry.setSsid
  dsimp only
  split_ifs <;> rfl

theorem setFixed_eq (pBss : BssEntry) (ie : BcnIeList) (upTime : Nat) :
    pBss.setFixed ie upTime =
      { pBss with
        bssType := ie.bssType
        beaconPeriod := ie.beaconPeriod
        cfpCount := (pBss.setFixed ie upTime).cfpCount
        cfpPeriod := (pBss.setFixed ie upTime).cfpPeriod
        cfpMaxDuration := (pBss.setFixed ie upTime).cfpMaxDuration
        cfpDurRemaining := (pBss.setFixed ie upTime).cfpDurRemaining
        atimWin := (pBss.setFixed ie upTime).atimWin
        lastBeaconRxTime := upTime
        capabilityInfo := ie.capabilityInfo
        privacy := decide (ie.capabilityInfo &&& 0x0010 ≠ 0) } := by
  unfold BssEntry.setFixed
  dsimp only
  split_ifs <;> rfl

section

variable (getCentCh : List UInt8 → List UInt8 → UInt8)

theorem setHt_eq (pBss : BssEntry) (ie : BcnIeList) :
    pBss.setHt getCentCh ie =
      { pBss with
        htCapabilityLen := (pBss.setHt getCentCh ie).htCapabilityLen
        htCapability := (pBss.setHt getCentCh ie).htCapability
        addHtInfoLen := (pBss.setHt getCentCh ie).addHtInfoLen
        addHtInfo := (pBss.setHt getCentCh ie).addHtInfo
        centralChannel := (pBss.setHt getCentCh ie).centralChannel } := by
  unfold BssEntry.setHt
  dsimp only
  split_ifs <;> rfl

/-- The copies of the elements. -/
def BssEntry.withIesOf (pBss e : BssEntry) : BssEntry :=
  { pBss with
    wpaIE := e.wpaIE
    rsnIE := e.rsnIE
    wpsIE := e.wpsIE
    countryString := e.countryString
    bHasCountryIE := e.bHasCountryIE }

theorem setIe_withIesOf (pBss e : BssEntry) (vie : Nat → UInt8) (off : Nat) :
    (pBss.withIesOf e).setIe vie off = pBss.withIesOf (e.setIe vie off) := by
  unfold BssEntry.setIe
  dsimp only
  split_ifs <;> rfl

theorem setIesFrom_withIesOf (vie : Nat → UInt8) (lengthVIE passes : Nat) (pBss e : BssEntry)
    (length : Nat) :
    BssEntry.setIesFrom vie lengthVIE passes (pBss.withIesOf e) length =
      pBss.withIesOf (BssEntry.setIesFrom vie lengthVIE passes e length) := by
  induction passes generalizing e length with
  | zero => rfl
  | succ passes ih =>
    unfold BssEntry.setIesFrom
    split
    · rw [setIe_withIesOf, ih]
    · rfl

/-- **The copies of the elements are made anew** by every frame. -/
theorem setIes_eq (pBss : BssEntry) (vie : Nat → UInt8) (lengthVIE : Nat) :
    pBss.setIes vie lengthVIE = pBss.withIesOf (BssEntry.setIes {} vie lengthVIE) :=
  setIesFrom_withIesOf vie lengthVIE lengthVIE pBss {} 0

/-- `VarIEs` when the elements have been copied. -/
def BssEntry.varIEsAfter (pBss : BssEntry) (b : Beacon) : List UInt8 :=
  Mem.write pBss.varIEs 0 (Mem.read b.pVIE 0 b.lengthVIE)

theorem setVie_varIEs (pBss : BssEntry) (b : Beacon) :
    (pBss.setVie b.ieList b.rssi b.lengthVIE b.pVIE).varIEs = pBss.varIEsAfter b := by
  unfold BssEntry.setVie BssEntry.varIEsAfter
  dsimp only
  split_ifs with hlen
  · rfl
  · have hzero : b.lengthVIE = 0 := by omega
    rw [hzero]
    rfl

/-- The entry `BssCipherParse` starts from. -/
def BssEntry.beforeCiphers (pBss : BssEntry) (b : Beacon) : BssEntry :=
  let pBss := ({ pBss with bssid := b.ieList.bssid } : BssEntry).setSsid b.ieList
  let pBss := (pBss.setFixed b.ieList b.upTime).setRates b.ieList
  (pBss.setVie b.ieList b.rssi b.lengthVIE b.pVIE).setHt getCentCh b.ieList

theorem bssEntrySet_eq (behind : List UInt8) (pBss : BssEntry) (b : Beacon) :
    bssEntrySet getCentCh behind pBss b =
      ((bssCipherParse behind (pBss.beforeCiphers getCentCh b)).setQos b.ieList).withIesOf
        (BssEntry.setIes {} (fun i => b.pVIE.getD i 0) b.lengthVIE) :=
  setIes_eq _ _ _

end

end Mt7601.Mlme
