/-
# How far `BssCipherParse` reads

`BssCipherParse` with its reads checked against the elements that were received, and with the branch
of `WAPI_SUPPORT`. It goes by the counts in an element without a look at the element's length, so a
count that lies, or an element that is cut short, takes it behind the last octet.
`bssCipherParse_safe_iff` is the exact condition; what is not stopped comes to what the scan table is
modelled with (`bssCipherParse_eq`).
-/
import Mt7601.Lib.CountedList
import Mt7601.Mlme.BssEntry

namespace Mt7601.Mlme.CipherReads

open Checked CountedList

/-! ## 1. `BssCipherParse` -/

/-- `IE_WAPI` and `WAPI_OUI` -/
def ieWapi : UInt8 := 68
def wapiOui : List UInt8 := [0x00, 0x14, 0x72]

/-- The modes and the cipher that `WAPI_SUPPORT` adds to the enumerations. -/
def waiCert : AuthenticationMode := 10
def waiPsk : AuthenticationMode := 11
def sms4Enabled : WepStatus := 12

/-- `Ndis802_11AuthModeMax`, the bound of the enumeration. -/
def authModeMax (wapiSupport : Bool) : AuthenticationMode :=
  if wapiSupport then 12 else AuthenticationMode.max

/-- What `BssCipherParse` derives. -/
structure WapiCiphers extends Ciphers where
  wapi : CipherSuite := {}
  deriving DecidableEq

/-- The loop over the pairwise ciphers of WPA and RSN. -/
def readPairs (mem : List UInt8) : Nat → CipherSuite → Nat → Checked CipherSuite
  | 0, suite, _ => .ok suite
  | count + 1, suite, off => do
    let type ← octet mem (off + 3)
    readPairs mem count (suite.addPairCipher type) (off + 4)

/-- `NdisEqualMemory(pEid->Octet, SES_OUI, 3) && (pEid->Len == 7)` -/
def isSes (mem : List UInt8) (off : Nat) : Checked Bool := do
  if ← equal mem (off + 2) sesOui then
    let len ← octet mem (off + 1)
    return len = 7
  else return false

/-- The end of `case IE_WPA`, with the type of the AKM suite. -/
def endWpa (c : Ciphers) (bssType akm : UInt8) : Ciphers :=
  let c :=
    if akm = 1 then c.addAuthMode AuthenticationMode.wpa
    else if akm = 2 then c.addAuthMode AuthenticationMode.wpaPsk
    else c
  let c :=
    if bssType = bssAdhoc then
      { c with
        authMode := AuthenticationMode.wpaNone
        authModeAux := AuthenticationMode.wpaNone
        wepStatus := c.wpa.groupCipher
        wpa := c.wpa.patchAux }
    else { c with wepStatus := c.wpa.pairCipher }
  { c with wpa := c.wpa.checkMixMode }

/-- `case IE_WPA` behind the OUI -/
def readWpaSuites (c : Ciphers) (bssType : UInt8) (mem : List UInt8) (off : Nat) :
    Checked Ciphers := do
  let group ← octet mem (off + 11)
  let count ← readU16 mem (off + 12)
  let wpa ← readPairs mem count
    { c.wpa with groupCipher := groupCipherOf group c.wpa.groupCipher } (off + 14)
  -- the number of AKM suites is read, and only the first one looked at
  let _ ← readU16 mem (off + 14 + 4 * count)
  let akm ← octet mem (off + 14 + 4 * count + 5)
  return endWpa { c with wpa := wpa } bssType akm

/-- `case IE_WPA` -/
def readWpa (c : Ciphers) (bssType : UInt8) (mem : List UInt8) (off : Nat) : Checked Ciphers := do
  if ← isSes mem off then return { c with bSES := true }
  if ← equal mem (off + 2) wpaOui then readWpaSuites c bssType mem off
  else return c

/-- The mode of an AKM suite of RSN. -/
def akmMode (wapiSupport : Bool) (type : UInt8) : AuthenticationMode :=
  if type = 0 then AuthenticationMode.wpaNone
  else if type = 1 then AuthenticationMode.wpa2
  else if type = 2 then AuthenticationMode.wpa2Psk
  else authModeMax wapiSupport

/-- The loop over the AKM suites, with where it ends. -/
def readAkms (wapiSupport : Bool) (mem : List UInt8) : Nat → Ciphers → Nat → Checked (Ciphers × Nat)
  | 0, c, off => .ok (c, off)
  | count + 1, c, off => do
    if ← equal mem off rsnOui then
      let type ← octet mem (off + 3)
      readAkms wapiSupport mem count (c.addAuthMode (akmMode wapiSupport type)) (off + 4)
    else .ok (c, off)

/-- The end of `case IE_RSN`, with the capabilities. -/
def endRsn (c : Ciphers) (bssType : UInt8) (rsnCapability : Nat) : Ciphers :=
  let c :=
    if bssType = bssAdhoc then
      let wpa :=
        { c.wpa with
          pairCipherAux := c.wpa2.pairCipherAux
          groupCipher := c.wpa2.groupCipher }
      { c with wpa := wpa.patchAux }
    else c
  let c := { c with wepStatus := c.wpa2.pairCipher }
  let wpa2 := { c.wpa2 with rsnCapability := rsnCapability }
  { c with wpa2 := wpa2.checkMixMode }

/-- `case IE_RSN` behind the OUI -/
def readRsnSuites (wapiSupport : Bool) (c : Ciphers) (bssType : UInt8) (mem : List UInt8)
    (off : Nat) : Checked Ciphers := do
  let group ← octet mem (off + 7)
  let count ← readU16 mem (off + 8)
  let wpa2 ← readPairs mem count
    { c.wpa2 with groupCipher := groupCipherOf group c.wpa2.groupCipher } (off + 10)
  let akms ← readU16 mem (off + 10 + 4 * count)
  let (c, last) ← readAkms wapiSupport mem akms { c with wpa2 := wpa2 } (off + 10 + 4 * count + 2)
  let rsnCapability ← readU16 mem last
  return endRsn c bssType rsnCapability

/-- `case IE_RSN` -/
def readRsn (wapiSupport : Bool) (c : Ciphers) (bssType : UInt8) (mem : List UInt8) (off : Nat) :
    Checked Ciphers := do
  let version ← readU16 mem (off + 2)
  if version ≠ 1 then return c
  if ← equal mem (off + 4) rsnOui then readRsnSuites wapiSupport c bssType mem off
  else return c

/-- One pairwise cipher of WAPI. -/
def addWapiCipher (suite : CipherSuite) (type : UInt8) : CipherSuite :=
  let tmpCipher := if type = 1 then sms4Enabled else WepStatus.wepDisabled
  if tmpCipher > suite.pairCipher then
    { suite with
      pairCipherAux := suite.pairCipher
      pairCipher := tmpCipher }
  else { suite with pairCipherAux := tmpCipher }

/-- The loop over the pairwise ciphers of WAPI, with where it ends. -/
def readWapiPairs (mem : List UInt8) : Nat → CipherSuite → Nat → Checked (CipherSuite × Nat)
  | 0, suite, off => .ok (suite, off)
  | count + 1, suite, off => do
    if ← equal mem off wapiOui then
      let type ← octet mem (off + 3)
      readWapiPairs mem count (addWapiCipher suite type) (off + 4)
    else .ok (suite, off)

/-- The group cipher of WAPI and the capabilities. -/
def readWapiGroup (c : WapiCiphers) (mem : List UInt8) (off : Nat) : Checked WapiCiphers := do
  if ← equal mem off wapiOui then
    let type ← octet mem (off + 3)
    let rsnCapability ← readU16 mem (off + 4)
    return { c with
      wapi :=
        { c.wapi with
          groupCipher := if type = 1 then sms4Enabled else c.wapi.groupCipher
          rsnCapability := rsnCapability }
      wepStatus := c.wapi.pairCipher }
  else return c

/-- `case IE_WAPI` behind the OUI; `count` is the number of AKM suites, of which only the first one is
looked at. -/
def readWapiSuites (c : WapiCiphers) (mem : List UInt8) (off count : Nat) : Checked WapiCiphers := do
  let akm ← octet mem (off + 9)
  let authMode := if akm = 1 then waiCert else if akm = 2 then waiPsk else c.authMode
  let pairs ← readU16 mem (off + 6 + 4 * count)
  let (wapi, last) ← readWapiPairs mem pairs c.wapi (off + 6 + 4 * count + 2)
  readWapiGroup { c with authMode := authMode, wapi := wapi } mem last

/-- `case IE_WAPI` -/
def readWapi (c : WapiCiphers) (mem : List UInt8) (off : Nat) : Checked WapiCiphers := do
  let version ← readU16 mem (off + 2)
  if version ≠ 1 then return c
  let count ← readU16 mem (off + 4)
  if ← equal mem (off + 6) wapiOui then readWapiSuites c mem off count
  else return c

/-- The `switch` -/
def readElement (wapiSupport : Bool) (c : WapiCiphers) (bssType : UInt8) (mem : List UInt8)
    (off : Nat) : Checked WapiCiphers := do
  let eid ← octet mem off
  if eid = ieWpa then
    let ciphers ← readWpa c.toCiphers bssType mem off
    return { c with toCiphers := ciphers }
  else if eid = ieRsn then
    let ciphers ← readRsn wapiSupport c.toCiphers bssType mem off
    return { c with toCiphers := ciphers }
  else if wapiSupport ∧ eid = ieWapi then readWapi c mem off
  else return c

/-- The `while` loop; `Length` is what is left behind the offset. Each turn takes two octets at least,
so it ends. -/
def readElements (wapiSupport : Bool) (bssType : UInt8) (mem : List UInt8) (c : WapiCiphers)
    (off : Nat) : Checked WapiCiphers :=
  if off < mem.length then
    match readElement wapiSupport c bssType mem off with
    | .error e => .error e
    | .ok c =>
      match octet mem (off + 1) with
      | .error e => .error e
      | .ok len => readElements wapiSupport bssType mem c (off + len.toNat + 2)
  else .ok c
termination_by mem.length - off

/-- What it starts from. -/
def initial (bSES privacy : Bool) : WapiCiphers where
  toCiphers := .init bSES privacy
  wapi :=
    { pairCipher := WepStatus.wepDisabled
      pairCipherAux := WepStatus.wepDisabled
      groupCipher := WepStatus.wepDisabled }

/-- `BssCipherParse`, on the elements received: the first `VarIELen` octets of `VarIEs`. -/
def bssCipherParse (wapiSupport bSES privacy : Bool) (bssType : UInt8) (mem : List UInt8) :
    Checked WapiCiphers :=
  readElements wapiSupport bssType mem (initial bSES privacy) 0

/-! ## 2. What has to lie inside -/

/-- Where a list of suites is left: at its first suite of another OUI, or at its end. -/
def suitesEnd (oui mem : List UInt8) : Nat → Nat → Nat
  | 0, off => off
  | count + 1, off =>
    if Mem.read mem off oui.length = oui then suitesEnd oui mem count (off + 4) else off

/-- The element is that of SES. -/
def hasSes (mem : List UInt8) (off : Nat) : Prop :=
  Mem.read mem (off + 2) 3 = sesOui ∧ mem.getD (off + 1) 0 = 7

/-- **A WPA element lies inside**: what it is told by, and, if it is one of WPA, as many pairwise
suites as are announced, the number of AKM suites and one of these. -/
def WpaInside (mem : List UInt8) (off : Nat) : Prop :=
  off + 5 ≤ mem.length ∧ (¬ hasSes mem off → off + 6 ≤ mem.length ∧
    (Mem.read mem (off + 2) 4 = wpaOui → off + 20 + 4 * u16 mem (off + 12) ≤ mem.length))

/-- **An RSN element lies inside**: its version, and, if that is 1, the OUI of the group suite, and,
if that is the one of RSN, both lists of suites and the capabilities behind. -/
def RsnInside (mem : List UInt8) (off : Nat) : Prop :=
  off + 4 ≤ mem.length ∧ (u16 mem (off + 2) = 1 → off + 7 ≤ mem.length ∧
    (Mem.read mem (off + 4) 3 = rsnOui →
      let akms := off + 12 + 4 * u16 mem (off + 8)
      let count := u16 mem (off + 10 + 4 * u16 mem (off + 8))
      suitesEnd rsnOui mem count akms + 2 ≤ mem.length ∧
        (suitesEnd rsnOui mem count akms < akms + 4 * count →
          suitesEnd rsnOui mem count akms + 3 ≤ mem.length)))

/-- **A WAPI element lies inside**: the same, with the group suite behind the lists. -/
def WapiInside (mem : List UInt8) (off : Nat) : Prop :=
  off + 4 ≤ mem.length ∧ (u16 mem (off + 2) = 1 → off + 9 ≤ mem.length ∧
    (Mem.read mem (off + 6) 3 = wapiOui →
      let pairs := off + 8 + 4 * u16 mem (off + 4)
      let last := suitesEnd wapiOui mem (u16 mem (off + 6 + 4 * u16 mem (off + 4))) pairs
      last + 3 ≤ mem.length ∧ (Mem.read mem last 3 = wapiOui → last + 6 ≤ mem.length)))

/-- **An element lies inside**, with its length octet and what is read of its kind. -/
structure ElementInside (wapiSupport : Bool) (mem : List UInt8) (off : Nat) : Prop where
  header : off + 2 ≤ mem.length
  wpa : mem.getD off 0 = ieWpa → WpaInside mem off
  rsn : mem.getD off 0 = ieRsn → RsnInside mem off
  wapi : wapiSupport = true → mem.getD off 0 = ieWapi → WapiInside mem off

/-- Where the elements start, one behind the other. -/
def starts (mem : List UInt8) (off : Nat) : List Nat :=
  if off < mem.length then off :: starts mem (off + (mem.getD (off + 1) 0).toNat + 2) else []
termination_by mem.length - off

/-! ## 3. The parts of an element -/

/-- The elements as the memory that the scan table is modelled with. -/
def octetOf (mem : List UInt8) (i : Nat) : UInt8 := mem.getD i 0

section

variable {mem : List UInt8}

theorem leWord_octetOf (off : Nat) : leWord (octetOf mem) off = u16 mem off := by
  unfold leWord u16 octetOf
  omega

theorem octetsAt_octetOf (off : Nat) (l : List UInt8) :
    octetsAt (octetOf mem) off l = true ↔ Mem.read mem off l.length = l := by
  rw [octetsAt_eq_true]
  constructor
  · intro h
    refine Mem.eq_of_getD (Mem.length_read _ _ _) fun k hk => ?_
    rw [Mem.getD_read mem off hk]
    exact h k hk
  · intro h k hk
    have hoctet := Mem.getD_read mem off hk
    rw [h] at hoctet
    exact hoctet.symm

theorem addPairCiphers_succ (suite : CipherSuite) (all : Nat → UInt8) (off count : Nat) :
    suite.addPairCiphers all off (count + 1) =
      (suite.addPairCipher (all (off + 3))).addPairCiphers all (off + 4) count := by
  unfold CipherSuite.addPairCiphers
  rw [List.range_succ_eq_map, List.foldl_cons, List.foldl_map]
  refine List.foldl_ext _ _ _ fun suite i _ => ?_
  rw [show off + 4 * (i + 1) + 3 = off + 4 + 4 * i + 3 by omega]

theorem le_suitesEnd (oui : List UInt8) (count off : Nat) : off ≤ suitesEnd oui mem count off := by
  induction count generalizing off with
  | zero => exact Nat.le_refl off
  | succ count ih =>
    rw [suitesEnd]
    split
    · have := ih (off + 4)
      omega
    · exact Nat.le_refl off

theorem readPairs_guarded (count : Nat) (suite : CipherSuite) (off : Nat) :
    Guarded (readPairs mem count suite off) (count = 0 ∨ off + 4 * count ≤ mem.length)
      (· = suite.addPairCiphers (octetOf mem) off count) := by
  induction count generalizing suite off with
  | zero =>
    have hend : Guarded (readPairs mem 0 suite off) True
        (· = suite.addPairCiphers (octetOf mem) off 0) := .ok rfl
    exact hend.congr (iff_of_true trivial (Or.inl rfl))
  | succ count ih =>
    rw [readPairs, addPairCiphers_succ]
    refine ((octet_guarded (off + 3)).bindEq (ih _ _)).congr ?_
    omega

/-- The loop over the AKM suites ends at the first of another OUI. -/
theorem readAkms_guarded (wapiSupport : Bool) (count : Nat) (c : Ciphers) (off : Nat) :
    Guarded (readAkms wapiSupport mem count c off)
      (count = 0 ∨ suitesEnd rsnOui mem count off ≤ mem.length ∧
        (suitesEnd rsnOui mem count off < off + 4 * count →
          suitesEnd rsnOui mem count off + 3 ≤ mem.length))
      fun r => r.2 = suitesEnd rsnOui mem count off ∧
        (wapiSupport = false → r = c.addAkms (octetOf mem) count off) := by
  induction count generalizing c off with
  | zero =>
    have hend : Guarded (readAkms wapiSupport mem 0 c off) True
        fun r => r.2 = suitesEnd rsnOui mem 0 off ∧
          (wapiSupport = false → r = c.addAkms (octetOf mem) 0 off) := .ok ⟨rfl, fun _ => rfl⟩
    exact hend.congr (iff_of_true trivial (Or.inl rfl))
  | succ count ih =>
    rw [readAkms, Ciphers.addAkms]
    have hlen : rsnOui.length = 3 := rfl
    have hle := @le_suitesEnd mem rsnOui count (off + 4)
    have hzero : count = 0 → suitesEnd rsnOui mem count (off + 4) = off + 4 := by
      rintro rfl
      rfl
    by_cases houi : Mem.read mem off rsnOui.length = rsnOui
    · have hsuite : suitesEnd rsnOui mem (count + 1) off = suitesEnd rsnOui mem count (off + 4) :=
        if_pos houi
      rw [hsuite, if_pos ((octetsAt_octetOf off rsnOui).mpr houi)]
      refine (equal_ite_guarded (S := True) (fun _ => (octet_guarded (off + 3)).bindEq
        ((ih _ (off + 4)).imp fun r hr => ?_)) fun hno => absurd houi hno).congr ?_
      · refine ⟨hr.1, fun hw => ?_⟩
        rw [hr.2 hw, hw]
        rfl
      · rw [if_pos houi, hlen]
        omega
    · have hend : suitesEnd rsnOui mem (count + 1) off = off := if_neg houi
      rw [hend, if_neg fun h => houi ((octetsAt_octetOf off rsnOui).mp h)]
      have hstay : Guarded (.ok (c, off) : Checked (Ciphers × Nat)) True
          fun r => r.2 = off ∧ (wapiSupport = false → r = (c, off)) := .ok ⟨rfl, fun _ => rfl⟩
      refine (equal_ite_guarded (P := True) (fun h => absurd h houi) fun _ => hstay).congr ?_
      rw [if_neg houi, hlen, and_true]
      omega

/-- The loop over the pairwise ciphers of WAPI ends like the one over the AKM suites. -/
theorem readWapiPairs_guarded (count : Nat) (suite : CipherSuite) (off : Nat) :
    Guarded (readWapiPairs mem count suite off)
      (count = 0 ∨ suitesEnd wapiOui mem count off ≤ mem.length ∧
        (suitesEnd wapiOui mem count off < off + 4 * count →
          suitesEnd wapiOui mem count off + 3 ≤ mem.length))
      fun r => r.2 = suitesEnd wapiOui mem count off := by
  induction count generalizing suite off with
  | zero =>
    have hend : Guarded (readWapiPairs mem 0 suite off) True
        fun r => r.2 = suitesEnd wapiOui mem 0 off := .ok rfl
    exact hend.congr (iff_of_true trivial (Or.inl rfl))
  | succ count ih =>
    rw [readWapiPairs]
    have hlen : wapiOui.length = 3 := rfl
    have hle := @le_suitesEnd mem wapiOui count (off + 4)
    have hzero : count = 0 → suitesEnd wapiOui mem count (off + 4) = off + 4 := by
      rintro rfl
      rfl
    by_cases houi : Mem.read mem off wapiOui.length = wapiOui
    · have hsuite : suitesEnd wapiOui mem (count + 1) off =
          suitesEnd wapiOui mem count (off + 4) := if_pos houi
      rw [hsuite]
      refine (equal_ite_guarded (S := True) (fun _ =>
        (octet_guarded (off + 3)).bind fun type _ => ih _ (off + 4))
        fun hno => absurd houi hno).congr ?_
      rw [if_pos houi, hlen]
      omega
    · have hend : suitesEnd wapiOui mem (count + 1) off = off := if_neg houi
      rw [hend]
      have hstay : Guarded (.ok (suite, off) : Checked (CipherSuite × Nat)) True fun r => r.2 = off := .ok rfl
      refine (equal_ite_guarded (P := True) (fun h => absurd h houi) fun _ => hstay).congr ?_
      rw [if_neg houi, hlen, and_true]
      omega

/-! ## 4. The elements -/

theorem isSes_guarded (off : Nat) : Guarded (isSes mem off) (off + 5 ≤ mem.length)
    fun b => b = true ↔ hasSes mem off := by
  unfold isSes hasSes
  have hlen : sesOui.length = 3 := rfl
  refine (equal_ite_guarded (P := off + 1 < mem.length) (S := True) (fun houi => ?_)
    fun hno => ?_).congr ?_
  · refine (octet_guarded (off + 1)).map fun len hl => ?_
    rw [hl, decide_eq_true_eq]
    exact ⟨fun h => ⟨houi, h⟩, fun h => h.2⟩
  · exact Guarded.ok ⟨(fun h => nomatch h), fun h => absurd h.1 hno⟩
  · rw [hlen]
    constructor
    · rintro ⟨h, -⟩
      omega
    · intro h
      refine ⟨by omega, ?_⟩
      split
      · omega
      · trivial

/-- What `case IE_WPA` comes to behind the OUI. -/
theorem readWpaSuites_guarded (c : Ciphers) (bssType : UInt8) (off : Nat) :
    Guarded (readWpaSuites c bssType mem off) (off + 20 + 4 * u16 mem (off + 12) ≤ mem.length)
      fun r => ¬ hasSes mem off → Mem.read mem (off + 2) wpaOui.length = wpaOui →
        r = c.parseWpa bssType (octetOf mem) off := by
  unfold readWpaSuites
  refine ((octet_guarded (off + 11)).bindEq ((readU16_guarded mem (off + 12)).bindEq
    ((readPairs_guarded (u16 mem (off + 12)) _ (off + 14)).bindEq
      ((readU16_guarded mem (off + 14 + 4 * u16 mem (off + 12))).bind fun _ _ =>
        (octet_guarded (off + 14 + 4 * u16 mem (off + 12) + 5)).map
          fun akm hakm hses houi => ?_)))).congr ?_
  · unfold Ciphers.parseWpa
    rw [if_neg, if_neg, hakm, leWord_octetOf]
    · rfl
    · rw [(octetsAt_octetOf (off + 2) wpaOui).mpr houi]
      decide
    · rw [Bool.and_eq_true, octetsAt_octetOf, decide_eq_true_eq]
      exact hses
  · omega

theorem readWpa_guarded (c : Ciphers) (bssType : UInt8) (off : Nat) :
    Guarded (readWpa c bssType mem off) (WpaInside mem off)
      (· = c.parseWpa bssType (octetOf mem) off) := by
  unfold readWpa WpaInside
  refine (isSes_guarded off).bind fun ses hses => ?_
  have hmark : (octetsAt (octetOf mem) (off + 2) sesOui && octetOf mem (off + 1) = 7) = true ↔
      hasSes mem off := by
    rw [Bool.and_eq_true, octetsAt_octetOf, decide_eq_true_eq]
    rfl
  by_cases hs : ses = true
  · rw [if_pos hs]
    have hret : Guarded (pure { c with bSES := true } : Checked Ciphers) True
        (· = c.parseWpa bssType (octetOf mem) off) := by
      refine .ok ?_
      rw [Ciphers.parseWpa, if_pos (hmark.mpr (hses.mp hs))]
    exact hret.congr (iff_of_true trivial fun hno => absurd (hses.mp hs) hno)
  · rw [if_neg hs]
    have hno : ¬ hasSes mem off := fun h => hs (hses.mpr h)
    have hlen : wpaOui.length = 4 := rfl
    have hret : Mem.read mem (off + 2) wpaOui.length ≠ wpaOui →
        Guarded (pure c : Checked Ciphers) True (· = c.parseWpa bssType (octetOf mem) off) := by
      intro houi
      refine .ok ?_
      rw [Ciphers.parseWpa, if_neg fun h => hno (hmark.mp h), if_pos]
      rw [Bool.not_eq_true', Bool.eq_false_iff]
      exact fun h => houi ((octetsAt_octetOf (off + 2) wpaOui).mp h)
    refine (equal_ite_guarded (fun houi =>
      (readWpaSuites_guarded c bssType off).imp fun r hr => hr hno houi) hret).congr ?_
    rw [hlen]
    constructor
    · rintro ⟨hle, hrest⟩ -
      exact ⟨hle, fun houi => by rwa [if_pos houi] at hrest⟩
    · intro h
      obtain ⟨hle, hrest⟩ := h hno
      refine ⟨hle, ?_⟩
      by_cases houi : Mem.read mem (off + 2) 4 = wpaOui
      · rw [if_pos houi]
        exact hrest houi
      · rw [if_neg houi]
        trivial

/-- What `case IE_RSN` comes to behind the OUI. -/
theorem parseRsn_eq (c : Ciphers) (bssType : UInt8) {all : Nat → UInt8} {off : Nat}
    (hversion : leWord all (off + 2) = 1) (houi : octetsAt all (off + 4) rsnOui = true) :
    c.parseRsn bssType all off =
      let count := leWord all (off + 8)
      let wpa2 := { c.wpa2 with groupCipher := groupCipherOf (all (off + 7)) c.wpa2.groupCipher }
      let akms := off + 10 + 4 * count
      let r := ({ c with wpa2 := wpa2.addPairCiphers all (off + 10) count } : Ciphers).addAkms all
        (leWord all akms) (akms + 2)
      endRsn r.1 bssType (leWord all r.2) := by
  rw [Ciphers.parseRsn, if_neg (not_not_intro hversion), if_neg (by rw [houi]; decide)]
  rfl

theorem readRsnSuites_guarded (wapiSupport : Bool) (c : Ciphers) (bssType : UInt8) (off : Nat) :
    Guarded (readRsnSuites wapiSupport c bssType mem off)
      (let akms := off + 12 + 4 * u16 mem (off + 8)
      let count := u16 mem (off + 10 + 4 * u16 mem (off + 8))
      suitesEnd rsnOui mem count akms + 2 ≤ mem.length ∧
        (suitesEnd rsnOui mem count akms < akms + 4 * count →
          suitesEnd rsnOui mem count akms + 3 ≤ mem.length))
      fun r => wapiSupport = false → u16 mem (off + 2) = 1 →
        Mem.read mem (off + 4) rsnOui.length = rsnOui →
        r = c.parseRsn bssType (octetOf mem) off := by
  unfold readRsnSuites
  set count := u16 mem (off + 8) with hcount
  set akms := u16 mem (off + 10 + 4 * count) with hakms
  have hle := @le_suitesEnd mem rsnOui akms (off + 10 + 4 * count + 2)
  refine ((octet_guarded (off + 7)).bindEq ((readU16_guarded mem (off + 8)).bindEq
    ((readPairs_guarded count _ (off + 10)).bindEq
      ((readU16_guarded mem (off + 10 + 4 * count)).bindEq
        ((readAkms_guarded wapiSupport akms _ (off + 10 + 4 * count + 2)).bind
          (S := suitesEnd rsnOui mem akms (off + 10 + 4 * count + 2) + 2 ≤ mem.length)
          fun r hr => ?_))))).congr ?_
  · obtain ⟨hlast, hakmsOk⟩ := hr
    dsimp only
    rw [← hlast]
    refine (readU16_guarded mem r.2).map fun rsnCapability hcap hw hversion houi => ?_
    have hmark := (octetsAt_octetOf (off + 4) rsnOui).mpr houi
    rw [parseRsn_eq c bssType ((leWord_octetOf _).trans hversion) hmark, hcap, hakmsOk hw]
    simp only [leWord_octetOf, ← hcount, ← hakms]
    rfl
  · have hoff : off + 12 + 4 * count = off + 10 + 4 * count + 2 := by omega
    simp only [hoff]
    omega

theorem readRsn_guarded (wapiSupport : Bool) (c : Ciphers) (bssType : UInt8) (off : Nat) :
    Guarded (readRsn wapiSupport c bssType mem off) (RsnInside mem off)
      fun r => wapiSupport = false → r = c.parseRsn bssType (octetOf mem) off := by
  unfold readRsn RsnInside
  have hlen : rsnOui.length = 3 := rfl
  refine (readU16_guarded mem (off + 2)).bindEq ?_
  by_cases hversion : u16 mem (off + 2) = 1
  · rw [if_neg (not_not_intro hversion)]
    have hret : Mem.read mem (off + 4) rsnOui.length ≠ rsnOui → Guarded (pure c : Checked Ciphers)
        True fun r => wapiSupport = false → r = c.parseRsn bssType (octetOf mem) off := by
      intro houi
      refine .ok fun _ => ?_
      rw [Ciphers.parseRsn, if_neg (not_not_intro ((leWord_octetOf _).trans hversion)), if_pos]
      rw [Bool.not_eq_true', Bool.eq_false_iff]
      exact fun h => houi ((octetsAt_octetOf (off + 4) rsnOui).mp h)
    refine (equal_ite_guarded (fun houi =>
      (readRsnSuites_guarded wapiSupport c bssType off).imp
        fun r hr hw => hr hw hversion houi) hret).congr ?_
    rw [hlen]
    constructor
    · rintro ⟨hle, hrest⟩ -
      exact ⟨hle, fun houi => by rwa [if_pos houi] at hrest⟩
    · intro h
      obtain ⟨hle, hrest⟩ := h hversion
      refine ⟨hle, ?_⟩
      by_cases houi : Mem.read mem (off + 4) 3 = rsnOui
      · rw [if_pos houi]
        exact hrest houi
      · rw [if_neg houi]
        trivial
  · rw [if_pos hversion]
    have hret : Guarded (pure c : Checked Ciphers) True
        fun r => wapiSupport = false → r = c.parseRsn bssType (octetOf mem) off := by
      refine .ok fun _ => ?_
      rw [Ciphers.parseRsn, if_pos]
      rw [leWord_octetOf]
      exact hversion
    exact hret.congr (iff_of_true trivial fun h => absurd h hversion)

theorem readWapiGroup_guarded (c : WapiCiphers) (off : Nat) :
    Guarded (readWapiGroup c mem off)
      (off + 3 ≤ mem.length ∧ (Mem.read mem off 3 = wapiOui → off + 6 ≤ mem.length))
      fun _ => True := by
  unfold readWapiGroup
  have hlen : wapiOui.length = 3 := rfl
  refine (equal_ite_guarded (S := True) (fun _ => (octet_guarded (off + 3)).bind fun type _ =>
    (readU16_guarded mem (off + 4)).map fun _ _ => trivial) fun _ => Guarded.ok trivial).congr ?_
  rw [hlen]
  by_cases houi : Mem.read mem off 3 = wapiOui
  · rw [if_pos houi]
    constructor
    · rintro ⟨hle, -, hcap⟩
      exact ⟨hle, fun _ => hcap⟩
    · rintro ⟨hle, hcap⟩
      have := hcap houi
      exact ⟨hle, by omega, this⟩
  · rw [if_neg houi]
    exact and_congr_right fun _ => iff_of_true trivial fun h => absurd h houi

theorem readWapiSuites_guarded (c : WapiCiphers) (off count : Nat) :
    Guarded (readWapiSuites c mem off count)
      (let pairs := off + 8 + 4 * count
      let last := suitesEnd wapiOui mem (u16 mem (off + 6 + 4 * count)) pairs
      last + 3 ≤ mem.length ∧ (Mem.read mem last 3 = wapiOui → last + 6 ≤ mem.length))
      fun _ => True := by
  unfold readWapiSuites
  set pairs := u16 mem (off + 6 + 4 * count) with hpairs
  have hle := @le_suitesEnd mem wapiOui pairs (off + 6 + 4 * count + 2)
  set last := suitesEnd wapiOui mem pairs (off + 6 + 4 * count + 2) with hlast
  refine ((octet_guarded (off + 9)).bind fun akm _ =>
    (readU16_guarded mem (off + 6 + 4 * count)).bindEq
      ((readWapiPairs_guarded pairs c.wapi (off + 6 + 4 * count + 2)).bind
        (S := last + 3 ≤ mem.length ∧ (Mem.read mem last 3 = wapiOui → last + 6 ≤ mem.length))
        fun r hr => ?_)).congr ?_
  · obtain ⟨wapi, off⟩ := r
    rw [show off = last from hr]
    exact readWapiGroup_guarded _ last
  · have hoff : off + 8 + 4 * count = off + 6 + 4 * count + 2 := by omega
    simp only [hoff, ← hlast]
    constructor
    · rintro ⟨-, -, -, h⟩
      exact h
    · rintro ⟨hend, hcap⟩
      exact ⟨by omega, by omega, by omega, hend, hcap⟩

theorem readWapi_guarded (c : WapiCiphers) (off : Nat) :
    Guarded (readWapi c mem off) (WapiInside mem off) fun _ => True := by
  unfold readWapi WapiInside
  have hlen : wapiOui.length = 3 := rfl
  refine (readU16_guarded mem (off + 2)).bindEq ?_
  by_cases hversion : u16 mem (off + 2) = 1
  · rw [if_neg (not_not_intro hversion)]
    refine ((readU16_guarded mem (off + 4)).bindEq (equal_ite_guarded
      (fun _ => readWapiSuites_guarded c off (u16 mem (off + 4)))
      fun _ => Guarded.ok trivial)).congr ?_
    rw [hlen]
    constructor
    · rintro ⟨-, hle, hrest⟩ -
      exact ⟨by omega, fun houi => by rwa [if_pos houi] at hrest⟩
    · intro h
      obtain ⟨hle, hrest⟩ := h hversion
      refine ⟨by omega, by omega, ?_⟩
      by_cases houi : Mem.read mem (off + 6) 3 = wapiOui
      · rw [if_pos houi]
        exact hrest houi
      · rw [if_neg houi]
        trivial
  · rw [if_pos hversion]
    have hret : Guarded (pure c : Checked WapiCiphers) True fun _ => True := .ok trivial
    exact hret.congr (iff_of_true trivial fun h => absurd h hversion)

/-- What an element comes to where the scan table reads it. -/
def parseElement (c : Ciphers) (bssType : UInt8) (all : Nat → UInt8) (off : Nat) : Ciphers :=
  if all off = ieWpa then c.parseWpa bssType all off
  else if all off = ieRsn then c.parseRsn bssType all off
  else c

theorem readElement_guarded (wapiSupport : Bool) (c : WapiCiphers) (bssType : UInt8) (off : Nat) :
    Guarded (readElement wapiSupport c bssType mem off >>= fun c =>
      octet mem (off + 1) >>= fun len => .ok (c, len)) (ElementInside wapiSupport mem off)
      fun r => r.2 = mem.getD (off + 1) 0 ∧ (wapiSupport = false →
        r.1.toCiphers = parseElement c.toCiphers bssType (octetOf mem) off) := by
  have hkind : Guarded (readElement wapiSupport c bssType mem off)
      (off < mem.length ∧
        if mem.getD off 0 = ieWpa then WpaInside mem off
        else if mem.getD off 0 = ieRsn then RsnInside mem off
        else if wapiSupport = true ∧ mem.getD off 0 = ieWapi then WapiInside mem off
        else True) fun r => wapiSupport = false →
          r.toCiphers = parseElement c.toCiphers bssType (octetOf mem) off := by
    unfold readElement
    refine (octet_guarded off).bindEq ?_
    refine Guarded.ite (fun he => (readWpa_guarded c.toCiphers bssType off).map fun r hr _ => ?_)
      fun hwpa => ?_
    · rw [hr]
      exact (if_pos he).symm
    refine Guarded.ite
      (fun he => (readRsn_guarded wapiSupport c.toCiphers bssType off).map fun r hr hw => ?_)
      fun hrsn => ?_
    · rw [hr hw]
      exact ((if_neg hwpa).trans (if_pos he)).symm
    refine Guarded.ite (fun hwapi => (readWapi_guarded c off).imp fun r _ hw => ?_)
      fun _ => Guarded.ok fun _ => ?_
    · rw [hw] at hwapi
      exact absurd hwapi.1 Bool.false_ne_true
    · exact ((if_neg hwpa).trans (if_neg hrsn)).symm
  have hlen : ∀ c' : WapiCiphers,
      (wapiSupport = false →
        c'.toCiphers = parseElement c.toCiphers bssType (octetOf mem) off) →
      Guarded (octet mem (off + 1) >>= fun len => .ok (c', len)) (off + 1 < mem.length)
        fun r => r.2 = mem.getD (off + 1) 0 ∧ (wapiSupport = false →
          r.1.toCiphers = parseElement c.toCiphers bssType (octetOf mem) off) := fun c' hc =>
    (octet_guarded (off + 1)).map fun len h => ⟨h, hc⟩
  refine (hkind.bind hlen).congr ?_
  have hrsn : ieRsn ≠ ieWpa := by decide
  have hwapi : ieWapi ≠ ieWpa ∧ ieWapi ≠ ieRsn := by decide
  constructor
  · rintro ⟨⟨-, h⟩, hle⟩
    refine ⟨hle, fun he => ?_, fun he => ?_, fun hw he => ?_⟩
    · rwa [if_pos he] at h
    · rwa [if_neg (by rw [he]; exact hrsn), if_pos he] at h
    · rwa [if_neg (by rw [he]; exact hwapi.1), if_neg (by rw [he]; exact hwapi.2),
        if_pos ⟨hw, he⟩] at h
  · intro h
    have hle := h.header
    refine ⟨⟨by omega, ?_⟩, by omega⟩
    split
    case isTrue he => exact h.wpa he
    split
    case isTrue he => exact h.rsn he
    split
    case isTrue he => exact h.wapi he.1 he.2
    trivial

/-! ## 5. The whole -/

theorem readElements_safe_iff (wapiSupport : Bool) (bssType : UInt8) (c : WapiCiphers) (off : Nat) :
    Safe (readElements wapiSupport bssType mem c off) ↔
      ∀ i ∈ starts mem off, ElementInside wapiSupport mem i := by
  induction hn : mem.length - off using Nat.strongRecOn generalizing c off with
  | ind n ih =>
    rw [readElements, starts]
    by_cases hoff : off < mem.length
    · rw [if_pos hoff, if_pos hoff, List.forall_mem_cons]
      have hguard := @readElement_guarded mem wapiSupport c bssType off
      rw [← hguard.safe]
      cases he : readElement wapiSupport c bssType mem off with
      | error e =>
        exact iff_of_false (not_safe_error e) fun h => not_safe_error e h.1
      | ok c' =>
        rw [he] at hguard
        cases hl : octet mem (off + 1) with
        | error e =>
          exact iff_of_false (not_safe_error e) fun h => not_safe_error e h.1
        | ok len =>
          rw [hl] at hguard
          have hlen : len = mem.getD (off + 1) 0 := (hguard.post _ rfl).1
          subst hlen
          have hrest := ih _ (by omega) c' (off + (mem.getD (off + 1) 0).toNat + 2) rfl
          exact hrest.trans ⟨fun h => ⟨safe_ok _, h⟩, fun h => h.2⟩
    · rw [if_neg hoff, if_neg hoff]
      exact iff_of_true (safe_ok c) fun i hi => nomatch hi

/-- Where it is not stopped, the loop comes to that of the scan table. -/
theorem readElements_eq (bssType : UInt8) (passes : Nat) (c : WapiCiphers) (off : Nat)
    (hpasses : mem.length ≤ off + passes) {r : WapiCiphers}
    (h : readElements false bssType mem c off = .ok r) :
    r.toCiphers = c.toCiphers.parseElements bssType (octetOf mem) mem.length passes off := by
  induction passes generalizing c off with
  | zero =>
    rw [readElements, if_neg (by omega)] at h
    cases h
    rfl
  | succ passes ih =>
    rw [readElements] at h
    rw [Ciphers.parseElements]
    by_cases hoff : off < mem.length
    · rw [if_pos hoff] at h ⊢
      have hguard := @readElement_guarded mem false c bssType off
      cases he : readElement false c bssType mem off with
      | error e =>
        rw [he] at h
        exact nomatch h
      | ok c' =>
        rw [he] at h hguard
        cases hl : octet mem (off + 1) with
        | error e =>
          rw [hl] at h
          exact nomatch h
        | ok len =>
          rw [hl] at h hguard
          obtain ⟨hlen, hc⟩ := hguard.post _ rfl
          have hrest := ih c' (off + len.toNat + 2) (by omega) h
          rw [hrest, show len = octetOf mem (off + 1) from hlen, hc rfl]
          rfl
    · rw [if_neg hoff] at h ⊢
      cases h
      rfl

theorem akmReach_octetOf (count off : Nat) :
    akmReach (octetOf mem) count off ≤ mem.length ↔
      suitesEnd rsnOui mem count off + 2 ≤ mem.length ∧
        (suitesEnd rsnOui mem count off < off + 4 * count →
          suitesEnd rsnOui mem count off + 3 ≤ mem.length) := by
  induction count generalizing off with
  | zero =>
    rw [akmReach, suitesEnd]
    omega
  | succ count ih =>
    rw [akmReach, suitesEnd]
    by_cases houi : Mem.read mem off rsnOui.length = rsnOui
    · rw [if_pos ((octetsAt_octetOf off rsnOui).mpr houi), if_pos houi, ih,
        show off + 4 * (count + 1) = off + 4 + 4 * count by omega]
    · rw [if_neg fun h => houi ((octetsAt_octetOf off rsnOui).mp h), if_neg houi]
      omega

/-- What lies inside is as far as the scan table reads. -/
theorem ElementInside.reach_le {wapiSupport : Bool} {off : Nat}
    (h : ElementInside wapiSupport mem off) : elementReach (octetOf mem) off ≤ mem.length := by
  have hheader := h.header
  unfold elementReach
  split
  case isTrue he =>
    obtain ⟨hle, hrest⟩ := h.wpa he
    unfold wpaReach
    split
    case isTrue => exact hle
    case isFalse hses =>
      rw [Bool.and_eq_true, octetsAt_octetOf, decide_eq_true_eq] at hses
      obtain ⟨hle, hsuites⟩ := hrest hses
      split
      case isTrue => exact hle
      case isFalse houi =>
        rw [Bool.not_eq_true', Bool.not_eq_false, octetsAt_octetOf] at houi
        have := hsuites houi
        rw [leWord_octetOf]
        omega
  split
  case isTrue he =>
    obtain ⟨hle, hrest⟩ := h.rsn he
    unfold rsnReach
    split
    case isTrue => exact hle
    case isFalse hversion =>
      rw [leWord_octetOf, ne_eq, not_not] at hversion
      obtain ⟨hle, hsuites⟩ := hrest hversion
      split
      case isTrue => exact hle
      case isFalse houi =>
        rw [Bool.not_eq_true', Bool.not_eq_false, octetsAt_octetOf] at houi
        dsimp only
        rw [leWord_octetOf, leWord_octetOf, akmReach_octetOf, show off + 10 + 4 * u16 mem (off + 8) + 2 =
          off + 12 + 4 * u16 mem (off + 8) by omega]
        exact hsuites houi
  exact hheader

theorem cipherReach_le {wapiSupport : Bool} (passes off : Nat)
    (h : ∀ i ∈ starts mem off, ElementInside wapiSupport mem i) :
    cipherReach (octetOf mem) mem.length passes off ≤ mem.length := by
  induction passes generalizing off with
  | zero => exact Nat.zero_le _
  | succ passes ih =>
    rw [cipherReach]
    split
    case isTrue hoff =>
      rw [starts, if_pos hoff, List.forall_mem_cons] at h
      exact max_le h.1.reach_le (ih _ h.2)
    case isFalse => exact Nat.zero_le _

end

/-- **`BssCipherParse` reads only what was received exactly if every element lies inside**, with what
its counts announce. It ends whatever they are. -/
theorem bssCipherParse_safe_iff (wapiSupport bSES privacy : Bool) (bssType : UInt8)
    (mem : List UInt8) :
    Safe (bssCipherParse wapiSupport bSES privacy bssType mem) ↔
      ∀ off ∈ starts mem 0, ElementInside wapiSupport mem off :=
  readElements_safe_iff wapiSupport bssType (initial bSES privacy) 0

/-- An RSN element that announces a pairwise cipher and ends there, the last one received. -/
theorem not_safe_bssCipherParse_cut :
    ¬ Safe (bssCipherParse false false true bssInfra [48, 8, 1, 0, 0, 0x0f, 0xac, 4, 1, 0]) := by
  have hrsn : readElement false (initial false true) bssInfra
      [48, 8, 1, 0, 0, 0x0f, 0xac, 4, 1, 0] 0 = .error .outside := rfl
  rw [bssCipherParse, readElements, if_pos (by decide), hrsn]
  exact not_safe_error _

/-- **What is not stopped comes to what the scan table is modelled with**, whatever stands behind. -/
theorem bssCipherParse_eq (pBss : BssEntry) (behind : List UInt8)
    (hlen : pBss.varIELen ≤ pBss.varIEs.length) {r : WapiCiphers}
    (h : bssCipherParse false pBss.ciphers.bSES pBss.privacy pBss.bssType
      (pBss.varIEs.take pBss.varIELen) = .ok r) :
    (Mlme.bssCipherParse behind pBss).ciphers = r.toCiphers := by
  have hsize : (pBss.varIEs.take pBss.varIELen).length = pBss.varIELen := by
    rw [List.length_take]
    omega
  have hinside := (readElements_safe_iff ..).mp ⟨r, h⟩
  have hreach := cipherReach_le pBss.varIELen 0 hinside
  have helements := readElements_eq pBss.bssType pBss.varIELen _ 0 (by omega) h
  rw [hsize] at helements hreach
  rw [helements]
  refine (parseElements_congr _ _ _ _ _ fun k hk => ?_).symm
  have hk' : k < pBss.varIELen := lt_of_lt_of_le hk hreach
  unfold octetOf BssEntry.vieMem
  rw [List.getD_eq_getElem?_getD, List.getD_eq_getElem?_getD, List.getElem?_take_of_lt hk',
    List.getElem?_append_left (by omega)]

/-- The ciphers of an entry without such elements do not hang on the octet behind. -/
theorem bssCipherParse_eq_rates :
    let pBss : BssEntry := { varIEs := [1, 1, 0x82], varIELen := 3 }
    ∃ r, bssCipherParse false false false 0 pBss.varIEs = .ok r ∧
      (Mlme.bssCipherParse [0xff] pBss).ciphers = r.toCiphers := by
  intro pBss
  have hend : readElements false 0 [1, 1, 0x82] (initial false false) 3 =
      .ok (initial false false) := by rw [readElements, if_neg (by decide)]
  have hrun : bssCipherParse false false false 0 [1, 1, 0x82] = .ok (initial false false) := by
    rw [bssCipherParse, readElements, if_pos (by decide)]
    exact hend
  exact ⟨_, hrun, bssCipherParse_eq pBss [0xff] (by decide) hrun⟩

end Mt7601.Mlme.CipherReads
