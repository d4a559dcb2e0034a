/-
# The RSN element of an association request: how an access point checks it

`APValidateRSNIE` with `RTMPCheckMcast`, `RTMPCheckUcast`, `RTMPCheckAKM` and `RTMPCheckAUTH`
(`ap/ap_wpa.c`), and the access point's own elements they compare with (`RTMPMakeRSNIE` of
`common/cmm_wpa.c` for an access point). Each comparison is of four octets at an offset of the
peer's element and four at an offset of an own one; the offsets of the former come from counts in
the element. A read outside the peer's element, or outside the own one, stops the check
(`Checked`).

`RSN_IE[0]` is the only own element unless WPA and WPA2 are mixed, whichever version it is for.
-/
import Mt7601.Lib.Checked
import Mt7601.Wpa.Defs

namespace Mt7601.Ap

open Wpa (AuthMode WepStatus MacTableEntry)

/-! ## 1. Suites and versions -/

/-- A suite selector, four octets. -/
abbrev Suite := List UInt8

/-- The version of the protocol an element is for. -/
inductive WpaVersion
  | wpa
  | wpa2
  deriving DecidableEq, Repr

namespace WpaVersion

/-- `IE_WPA` and `IE_WPA2` -/
def eid : WpaVersion → UInt8
  | wpa => 221
  | wpa2 => 48

/-- The version an element identifier stands for. -/
def ofEid (eid : UInt8) : Option WpaVersion :=
  if eid = wpa.eid then some wpa else if eid = wpa2.eid then some wpa2 else none

/-- The first three octets of a suite. -/
def oui : WpaVersion → List UInt8
  | wpa => [0x00, 0x50, 0xf2]
  | wpa2 => [0x00, 0x0f, 0xac]

/-- `OUI_WPA_TKIP`, `OUI_WPA2_TKIP` -/
def tkip (v : WpaVersion) : Suite := v.oui ++ [2]

/-- `OUI_WPA_CCMP`, `OUI_WPA2_CCMP` -/
def ccmp (v : WpaVersion) : Suite := v.oui ++ [4]

/-- `OUI_WPA_8021X_AKM`, `OUI_WPA2_8021X_AKM` -/
def akm8021x (v : WpaVersion) : Suite := v.oui ++ [1]

/-- `OUI_WPA_PSK_AKM`, `OUI_WPA2_PSK_AKM` -/
def akmPsk (v : WpaVersion) : Suite := v.oui ++ [2]

/-- What precedes the group suite: `OUI_WPA_VERSION` in WPA, and the version. -/
def front : WpaVersion → List UInt8
  | wpa => [0x00, 0x50, 0xf2, 0x01, 1, 0]
  | wpa2 => [1, 0]

/-- The offset of the group suite: 6 or 2. -/
def mcast (v : WpaVersion) : Nat := v.front.length

/-- The offset of the pairwise count: 10 or 6. -/
def ucount (v : WpaVersion) : Nat := v.mcast + 4

/-- The offset of the first pairwise suite: 12 or 8. -/
def ucast (v : WpaVersion) : Nat := v.mcast + 6

end WpaVersion

/-! ## 2. The access point's own elements -/

/-- The WPA modes of an access point. -/
def isApWpaMode : AuthMode → Bool
  | .wpa | .wpaPsk | .wpa2 | .wpa2Psk | .wpa1Wpa2 | .wpa1PskWpa2Psk => true
  | _ => false

/-- The security configuration of a BSS with WPA or WPA2 and TKIP, AES or both. -/
structure ApSecurity where
  authMode : AuthMode
  wepStatus : WepStatus
  wpaMixPairCipher : UInt8
  preAuth : Bool
  isWpa : isApWpaMode authMode = true
  isCipher : wepStatus = .encryption2Enabled ∨ wepStatus = .encryption3Enabled ∨
    wepStatus = .encryption4Enabled

namespace ApSecurity

/-- Both versions are in use. -/
def mixed (ap : ApSecurity) : Bool :=
  ap.authMode = .wpa1Wpa2 ∨ ap.authMode = .wpa1PskWpa2Psk

/-- `MIX_CIPHER_WPA_TKIP_ON`, `MIX_CIPHER_WPA2_TKIP_ON` -/
def tkipOn (ap : ApSecurity) : WpaVersion → Bool
  | .wpa => ap.wpaMixPairCipher &&& 0x08 ≠ 0
  | .wpa2 => ap.wpaMixPairCipher &&& 0x02 ≠ 0

/-- `MIX_CIPHER_WPA_AES_ON`, `MIX_CIPHER_WPA2_AES_ON` -/
def aesOn (ap : ApSecurity) : WpaVersion → Bool
  | .wpa => ap.wpaMixPairCipher &&& 0x04 ≠ 0
  | .wpa2 => ap.wpaMixPairCipher &&& 0x01 ≠ 0

/-- The pairwise suites an element of the version lists, with the ciphers they stand for. -/
def pairwise (ap : ApSecurity) (v : WpaVersion) : List (Suite × WepStatus) :=
  if ap.wepStatus = .encryption4Enabled then
    if ap.tkipOn v then
      (v.tkip, .encryption2Enabled) ::
        if ap.aesOn v then [(v.ccmp, .encryption3Enabled)] else []
    else [(v.ccmp, .encryption3Enabled)]
  else if ap.wepStatus = .encryption2Enabled then [(v.tkip, .encryption2Enabled)]
  else [(v.ccmp, .encryption3Enabled)]

/-- The group suite: TKIP unless AES is the only cipher. -/
def groupSuite (ap : ApSecurity) (v : WpaVersion) : Suite :=
  if ap.wepStatus = .encryption3Enabled then v.ccmp else v.tkip

/-- The suite of the authentication. -/
def akm (ap : ApSecurity) (v : WpaVersion) : Suite :=
  if ap.authMode = .wpaPsk ∨ ap.authMode = .wpa2Psk ∨ ap.authMode = .wpa1PskWpa2Psk then v.akmPsk
  else v.akm8021x

/-- `RTMPMakeRsnIeCipher` -/
def rtmpMakeRsnIeCipher (ap : ApSecurity) (v : WpaVersion) : List UInt8 :=
  v.front ++ ap.groupSuite v ++ [UInt8.ofNat (ap.pairwise v).length, 0] ++
    (ap.pairwise v).flatMap Prod.fst

/-- `RTMPMakeRsnIeAKM` -/
def rtmpMakeRsnIeAkm (ap : ApSecurity) (v : WpaVersion) : List UInt8 :=
  [1, 0] ++ ap.akm v

/-- `RTMPMakeRsnIeCap` -/
def rtmpMakeRsnIeCap (ap : ApSecurity) : WpaVersion → List UInt8
  | .wpa => []
  | .wpa2 => [if ap.preAuth then 1 else 0, 0]

/-- The version `RSN_IE[0]` is for. -/
def primary (ap : ApSecurity) : WpaVersion :=
  if ap.authMode = .wpa ∨ ap.authMode = .wpaPsk ∨ ap.mixed then .wpa else .wpa2

/-- An element `RTMPMakeRSNIE` puts together, without identifier and length. -/
def elementFor (ap : ApSecurity) (v : WpaVersion) : List UInt8 :=
  ap.rtmpMakeRsnIeCipher v ++ ap.rtmpMakeRsnIeAkm v ++ ap.rtmpMakeRsnIeCap v

/-- The version of the own element that an element of version `v` is compared with: `RSN_IE[1]` is
there only for WPA2 in the mixed modes. -/
def ownVersion (ap : ApSecurity) : WpaVersion → WpaVersion
  | .wpa => ap.primary
  | .wpa2 => if ap.mixed then .wpa2 else ap.primary

/-- `RSN_IE[0]`, or `RSN_IE[IE_Idx]` for WPA2. -/
def rsnIe (ap : ApSecurity) (v : WpaVersion) : List UInt8 :=
  ap.elementFor (ap.ownVersion v)

/-- The `AuthMode` an element of the version stands for. -/
def authModeFor (ap : ApSecurity) (v : WpaVersion) : AuthMode :=
  match ap.authMode, v with
  | .wpa1Wpa2, .wpa => .wpa
  | .wpa1Wpa2, .wpa2 => .wpa2
  | .wpa1PskWpa2Psk, .wpa => .wpaPsk
  | .wpa1PskWpa2Psk, .wpa2 => .wpa2Psk
  | mode, _ => mode

end ApSecurity

/-! ## 3. Reading an element -/

/-- `EID_STRUCT`: the identifier and the octets its length octet counts. -/
structure EidStruct where
  eid : UInt8
  octet : { l : List UInt8 // l.length ≤ 255 }
  deriving DecidableEq

/-- `Len` -/
def EidStruct.len (ie : EidStruct) : Nat := ie.octet.1.length

/-- The little-endian number at an offset. -/
def u16 (l : List UInt8) (off : Nat) : Nat :=
  (l.getD off 0).toNat + 256 * (l.getD (off + 1) 0).toNat

/-- The four octets at an offset. -/
def suiteAt (l : List UInt8) (off : Nat) : Suite := (l.drop off).take 4

/-- `NdisMoveMemory(&Count, p, sizeof(USHORT))` -/
def readU16 (l : List UInt8) (off : Nat) : Checked Nat := do
  Checked.access l.length off 2
  return u16 l off

/-- An operand of `RTMPEqualMemory(.., .., 4)`. -/
def readSuite (l : List UInt8) (off : Nat) : Checked Suite := do
  Checked.access l.length off 4
  return suiteAt l off

/-! ## 4. The checks -/

/-- What `RTMPCheckMcast` compares. -/
def sameMcast (ap : ApSecurity) (ie : EidStruct) (v : WpaVersion) : Checked Bool := do
  let sta ← readSuite ie.octet v.mcast
  let own ← readSuite (ap.rsnIe v) v.mcast
  return sta = own

/-- `RTMPCheckMcast`, with what it leaves in `AuthMode`. -/
def rtmpCheckMcast (ap : ApSecurity) (ie : EidStruct) (entry : MacTableEntry) :
    Checked (Bool × MacTableEntry) := do
  let entry := { entry with authMode := ap.authMode }
  if 6 ≤ ie.len then
    match WpaVersion.ofEid ie.eid with
    | some v =>
      let same ← sameMcast ap ie v
      return (same, { entry with authMode := ap.authModeFor v })
    | none => return (false, entry)
  else return (false, entry)

/-- A pairwise suite of the peer against the own ones: the cipher it stands for if it is one of
them. -/
def matchUcast (ap : ApSecurity) (v : WpaVersion) (sta : Suite) : Checked (Option WepStatus) := do
  let own ← readSuite (ap.rsnIe v) v.ucast
  if ap.wepStatus = .encryption4Enabled then
    if ap.tkipOn v then
      if sta = own then return some .encryption2Enabled
      else if ap.aesOn v then
        let second ← readSuite (ap.rsnIe v) (v.ucast + 4)
        return if sta = second then some .encryption3Enabled else none
      else return none
    else return if sta = own then some .encryption3Enabled else none
  else return if sta = own then some ap.wepStatus else none

/-- The loop over the pairwise suites of the peer. -/
def ucastLoop (ap : ApSecurity) (v : WpaVersion) (octet : List UInt8) :
    Nat → Nat → Checked (Option WepStatus)
  | 0, _ => return none
  | count + 1, off => do
    let sta ← readSuite octet off
    match ← matchUcast ap v sta with
    | some wepStatus => return some wepStatus
    | none => ucastLoop ap v octet count (off + 4)

/-- `RTMPCheckUcast`, with what it leaves in `WepStatus`. -/
def rtmpCheckUcast (ap : ApSecurity) (ie : EidStruct) (entry : MacTableEntry) :
    Checked (Bool × MacTableEntry) := do
  let entry := { entry with wepStatus := ap.wepStatus }
  if ie.len < 16 then return (false, entry)
  else
    match WpaVersion.ofEid ie.eid with
    | none => return (false, entry)
    | some v =>
      let count ← readU16 ie.octet v.ucount
      match ← ucastLoop ap v ie.octet count v.ucast with
      | some wepStatus => return (true, { entry with wepStatus })
      | none => return (false, entry)

/-- The loop of `RTMPCheckAKM` over the own suites. -/
def akmLoop (octet : List UInt8) (staOff : Nat) (own : List UInt8) : Nat → Nat → Checked Bool
  | 0, _ => return false
  | count + 1, off => do
    let sta ← readSuite octet staOff
    let suite ← readSuite own off
    if sta = suite then return true else akmLoop octet staOff own count (off + 4)

/-- `RTMPCheckAKM`: the own element is walked by the counts found at the places they have in an
element of version `v`. -/
def rtmpCheckAkm (octet : List UInt8) (staOff : Nat) (own : List UInt8) (v : WpaVersion) :
    Checked Bool := do
  let ucount ← readU16 own v.ucount
  let acount ← readU16 own (v.ucast + 4 * ucount)
  akmLoop octet staOff own acount (v.ucast + 4 * ucount + 2)

/-- The loop over the AKM suites of the peer. -/
def authLoop (ap : ApSecurity) (v : WpaVersion) (octet : List UInt8) : Nat → Nat → Checked Bool
  | 0, _ => return false
  | count + 1, off => do
    if ← rtmpCheckAkm octet off (ap.rsnIe v) v then return true
    else authLoop ap v octet count (off + 4)

/-- `RTMPCheckAUTH` -/
def rtmpCheckAuth (ap : ApSecurity) (ie : EidStruct) : Checked Bool :=
  if ie.len < 16 then return false
  else
    match WpaVersion.ofEid ie.eid with
    | none => return false
    | some v => do
      let ucount ← readU16 ie.octet v.ucount
      let acount ← readU16 ie.octet (v.ucast + 4 * ucount)
      authLoop ap v ie.octet acount (v.ucast + 4 * ucount + 2)

/-- The status codes of an association response. -/
inductive AssocStatus
  | success
  | unspecifyFail
  | rejUnableHandleSta
  | rejDataRate
  | denyOutScope
  | invalidGroupCipher
  | invalidPairwiseCipher
  | invalidAkmp
  deriving DecidableEq, Repr

/-- `APValidateRSNIE`. The length it is given is an octet of its own. -/
def apValidateRsnIe (ap : ApSecurity) (entry : MacTableEntry) (ie : EidStruct)
    (rsnIeLen : UInt8) : Checked (AssocStatus × MacTableEntry) := do
  if rsnIeLen = 0 then return (.success, entry)
  else if ie.len + 2 ≠ rsnIeLen.toNat then return (.unspecifyFail, entry)
  else
    let (group, entry) ← rtmpCheckMcast ap ie entry
    if !group then return (.invalidGroupCipher, entry)
    else
      let (pairwise, entry) ← rtmpCheckUcast ap ie entry
      if !pairwise then return (.invalidPairwiseCipher, entry)
      else
        let akm ← rtmpCheckAuth ap ie
        return (if akm then .success else .invalidAkmp, entry)

/-- `RSNIE_Len` of a request with the element: `eid_ptr->Len + 2`, in an octet. -/
def EidStruct.rsnIeLen (ie : EidStruct) : UInt8 := UInt8.ofNat (ie.len + 2)

end Mt7601.Ap
