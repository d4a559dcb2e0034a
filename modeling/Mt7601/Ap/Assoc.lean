/-
# Association and reassociation requests at an access point

`ap_cmm_peer_assoc_req_action`, `APBuildAssociation` and `update_associated_mac_entry`
(`ap/ap_assoc.c`), as far as they decide on a request and write the security state of the sender's
entry. What `PeerAssocReqCmmSanity` makes of a request is an input (`IeLists`, or nothing if it
fails).

The build has WPS with its second version, 802.1X and 802.11n; whether it has `HOSTAPD_SUPPORT` is
left open, but hostapd is not running. Rates, HT and U-APSD of the entry, and what a success starts
behind the response (BA sessions, the timers of the handshake), are left out.
-/
import Mt7601.Ap.RsnIe

namespace Mt7601.Ap

open Wpa (AuthMode WepStatus WpaState GtkState Sst PortSecured PrivacyFilter MacAddr MacTableEntry)

/-! ## 1. The BSS and the station -/

/-- What a BSS is configured for: WPA with its ciphers, or one of the modes before it. -/
inductive BssSecurity
  | wpa (sec : ApSecurity)
  | legacy (authMode : AuthMode) (wepStatus : WepStatus)
      (old : authMode.ctorIdx < AuthMode.wpa.ctorIdx)

def BssSecurity.authMode : BssSecurity → AuthMode
  | wpa sec => sec.authMode
  | legacy authMode _ _ => authMode

/-- `WSC_CTRL`, what an association reads and writes of it. `confMode` is `WscConfMode` being other
than `WSC_DISABLE`. -/
structure WscControl where
  confMode : Bool
  entryAddr : MacAddr
  bEnableWpsV2 : Bool
  bWpsEnable : Bool
  deriving DecidableEq

/-- `RT_802_11_ACL` -/
structure AccessControlList where
  policy : UInt8
  entry : List MacAddr
  deriving DecidableEq

/-- `MULTISSID_STRUCT` -/
structure AssocBss where
  ssid : List UInt8
  security : BssSecurity
  ieee8021x : Bool
  wsc : WscControl
  acl : AccessControlList

/-- `MAC_TABLE_ENTRY`: the entry of the handshake with the fields of an association. -/
structure ApEntry extends MacTableEntry where
  aid : UInt16
  rsnIe : List UInt8
  bWscCapable : Bool
  receiveEapolStartEapRspId : UInt8
  capabilityInfo : UInt16
  wmmCapable : Bool

/-- `RTMP_ADAPTER`: the build, the modes of the radio, the BSSs (`VALID_MBSS`) and the MAC table. -/
structure AccessPoint where
  hostapdSupport : Bool
  phyMode : UInt8
  mbss : UInt8 → Option AssocBss
  macTab : MacAddr → Option ApEntry

/-- `IE_LISTS` of a request that passed `PeerAssocReqCmmSanity`: `wpsIe` says that it has an element
with `WPS_OUI`, `htCap` that `ht_cap_len` is not zero. -/
structure IeLists where
  addr2 : MacAddr
  capabilityInfo : UInt16
  ssid : List UInt8
  supportedRates : List UInt8
  rsn : Option EidStruct
  wpsIe : Bool
  bWmmCapable : Bool
  htCap : Bool

/-- The RSN element in the list: the sanity check passes it on only in a BSS with WPA. -/
def rsnOf (b : AssocBss) (ie : IeLists) : Option EidStruct :=
  match b.security with
  | .wpa _ => ie.rsn
  | .legacy _ _ _ => none

/-- `RSNIE_Len` -/
def rsnIeLenOf (rsn : Option EidStruct) : UInt8 :=
  match rsn with
  | none => 0
  | some ie => ie.rsnIeLen

/-- The first `RSNIE_Len` octets of the element, which the entry keeps. -/
def keptRsnIe (rsn : Option EidStruct) : List UInt8 :=
  match rsn with
  | none => []
  | some ie => (ie.eid :: UInt8.ofNat ie.len :: ie.octet.1).take ie.rsnIeLen.toNat

/-- WPS is on in its second version and not enabled. -/
def WscControl.v2Off (w : WscControl) : Bool := w.bEnableWpsV2 && !w.bWpsEnable

/-- `ie_list->bWscCapable` -/
def bWscCapableOf (b : AssocBss) (ie : IeLists) : Bool :=
  ie.wpsIe && (b.wsc.bWpsEnable || !b.wsc.bEnableWpsV2)

/-! ## 2. Rates -/

/-- `dot11_2_ra_rate` -/
def dot11ToRaRate : UInt8 → Nat
  | 108 => 11
  | 96 => 10
  | 72 => 9
  | 48 => 8
  | 36 => 7
  | 24 => 6
  | 18 => 5
  | 12 => 4
  | 22 => 3
  | 11 => 2
  | 4 => 1
  | 2 => 0
  | _ => 3

/-- The highest of the rates, without its basic bit. -/
def maxSupportedRate (rates : List UInt8) : UInt8 :=
  rates.foldl (fun m r => if m < r &&& 0x7f then r &&& 0x7f else m) 0

/-- `WMODE_G`, `WMODE_GN` and the modes of an access point that is 802.11n only. -/
def wmodeG : UInt8 := 4
def wmodeGn : UInt8 := 8
def wmodeHt : UInt8 := 8 ||| 16 ||| 32

/-- The two refusals for rates: an 802.11b station in an 802.11g BSS (`RATE_FIRST_OFDM_RATE` is 4),
and a station without HT in an 802.11n one. -/
def ratesRefused (phyMode : UInt8) (ie : IeLists) : Bool :=
  ((phyMode = wmodeG ∨ phyMode = wmodeG ||| wmodeGn) ∧
      dot11ToRaRate (maxSupportedRate ie.supportedRates) < 4) ∨
    (phyMode &&& ~~~wmodeHt = 0 ∧ !ie.htCap)

/-! ## 3. Building the association -/

/-- `AuthMode >= Ndis802_11AuthModeWPA` -/
def atLeastWpa (mode : AuthMode) : Bool := AuthMode.wpa.ctorIdx ≤ mode.ctorIdx

/-- The handshake starts over: the state of the entry's mode. A mode that stands for both versions
of WPA has none of its own. -/
def startHandshake (ieee8021x : Bool) (entry : ApEntry) : ApEntry :=
  if entry.authMode = .wpaPsk ∨ entry.authMode = .wpa2Psk then
    { entry with privacyFilter := .filter8021xWep, wpaState := .initPsk }
  else if entry.authMode = .wpa ∨ entry.authMode = .wpa2 ∨ ieee8021x then
    { entry with privacyFilter := .filter8021xWep, wpaState := .authentication }
  else entry

/-- In WPA or 802.1X the port is not secured. -/
def setPort (ieee8021x : Bool) (entry : ApEntry) : ApEntry :=
  { entry with
    portSecured := if atLeastWpa entry.authMode ∨ ieee8021x then .notSecured else .secured }

/-- `update_associated_mac_entry` -/
def updateAssociatedMacEntry (b : AssocBss) (ie : IeLists) (entry : ApEntry) : ApEntry :=
  let entry := startHandshake b.ieee8021x
    { entry with sst := .assoc, capabilityInfo := ie.capabilityInfo }
  { setPort b.ieee8021x entry with reTryCounter := 0 }

/-- The check of the RSN element. In a BSS without WPA there is none to check. -/
def validateRsn (b : AssocBss) (entry : ApEntry) (rsn : Option EidStruct) :
    Checked (AssocStatus × ApEntry) :=
  match b.security, rsn with
  | .wpa sec, some ie => do
    let (code, checked) ← apValidateRsnIe sec entry.toMacTableEntry ie ie.rsnIeLen
    return (code, { entry with toMacTableEntry := checked })
  | _, _ => return (.success, entry)

/-- The branch for a request without RSN element in a BSS with WPA: a station that comes for WPS. -/
def associateForWps (b : AssocBss) (entry : ApEntry) : AssocStatus × ApEntry :=
  if b.wsc.confMode ∧ entry.bWscCapable ∧ (b.wsc.bWpsEnable ∨ !b.wsc.bEnableWpsV2) then
    (.success, startHandshake b.ieee8021x (setPort b.ieee8021x { entry with sst := .assoc }))
  else (.denyOutScope, entry)

/-- `APBuildAssociation` behind the check of the RSN element. -/
def buildValidated (hostapdSupport : Bool) (b : AssocBss) (entry : ApEntry) (ie : IeLists) :
    AssocStatus × ApEntry :=
  let entry := { entry with rsnIe := keptRsnIe (rsnOf b ie) }
  if entry.aid = 0 then (.rejUnableHandleSta, entry)
  else if rsnIeLenOf (rsnOf b ie) = 0 ∧ atLeastWpa b.security.authMode ∧ !hostapdSupport then
    associateForWps b entry
  else (.success, updateAssociatedMacEntry b ie entry)

/-- `APBuildAssociation` -/
def apBuildAssociation (ap : AccessPoint) (b : AssocBss) (entry : ApEntry) (ie : IeLists) :
    Checked (AssocStatus × ApEntry) := do
  if ratesRefused ap.phyMode ie then return (.rejDataRate, entry)
  else if entry.sst = .notAuth then return (.rejUnableHandleSta, entry)
  else
    let (code, entry) ←
      if entry.bWscCapable then pure (.success, entry) else validateRsn b entry (rsnOf b ie)
    if code ≠ .success then return (code, entry)
    else
      let (code, entry) := buildValidated ap.hostapdSupport b entry ie
      return (code,
        if code = .success then { entry with wmmCapable := ie.bWmmCapable } else entry)

/-! ## 4. The handler -/

/-- The old pairwise key of a station with TKIP, AES or 802.1X goes, before anything else is looked
at. The modes of encryption are compared as numbers. -/
def clearsKey (b : AssocBss) (entry : ApEntry) : Bool :=
  entry.aid ≠ 0 ∧ (WepStatus.encryption2Enabled.ctorIdx ≤ entry.wepStatus.ctorIdx ∨ b.ieee8021x)

def clearPairwiseKey (b : AssocBss) (entry : ApEntry) : ApEntry :=
  if clearsKey b entry then { entry with gtkState := .negotiating, pairwiseKey := {} } else entry

/-- The WPS part: whether the station comes for WPS, and the registration it breaks off. -/
def noteWps (b : AssocBss) (entry : ApEntry) (ie : IeLists) : AssocBss × ApEntry :=
  let entry := { entry with receiveEapolStartEapRspId := 0, bWscCapable := bWscCapableOf b ie }
  if b.wsc.v2Off then (b, entry)
  else
    ({ b with wsc.entryAddr :=
        if entry.addr = b.wsc.entryAddr then .zero 6 else b.wsc.entryAddr },
      { entry with bWscCapable :=
          entry.bWscCapable ||
            (rsnIeLenOf (rsnOf b ie) = 0 && atLeastWpa b.security.authMode && b.wsc.confMode) })

/-- `ApCheckAccessControlList` -/
def apCheckAccessControlList (b : AssocBss) (addr : MacAddr) : Bool :=
  if b.acl.policy = 0 then true
  else if b.acl.policy = 1 then addr ∈ b.acl.entry
  else addr ∉ b.acl.entry

/-- The access control list is not asked about a station that comes for WPS while no registration is
under way. -/
def aclRefuses (b : AssocBss) (entry : ApEntry) (addr : MacAddr) : Bool :=
  !(entry.bWscCapable && b.wsc.confMode && b.wsc.bEnableWpsV2 && b.wsc.bWpsEnable &&
      b.wsc.entryAddr = .zero 6) && !apCheckAccessControlList b addr

/-- The table with the entry of one address replaced. -/
def AccessPoint.setEntry (ap : AccessPoint) (addr : MacAddr) (entry : Option ApEntry) :
    AccessPoint :=
  { ap with macTab := fun a => if a = addr then entry else ap.macTab a }

def AccessPoint.setBss (ap : AccessPoint) (apidx : UInt8) (b : AssocBss) : AccessPoint :=
  { ap with mbss := fun i => if i = apidx then some b else ap.mbss i }

/-- The handler from the entry of the sender on. The second component is the status of the
response, if one is sent: there must be memory for it (`respAlloc`). -/
def associate (ap : AccessPoint) (b : AssocBss) (entry : ApEntry) (ie : IeLists)
    (respAlloc : Bool) : Checked (Option ApEntry × Option AssocStatus) := do
  let (b, entry) := noteWps b (clearPairwiseKey b entry) ie
  if ie.ssid ≠ b.ssid then return (some entry, none)
  else
    let refused := aclRefuses b entry ie.addr2
    let (code, entry) ← apBuildAssociation ap b entry ie
    if !respAlloc then return (some entry, none)
    else if refused then
      -- `MacTableDeleteEntry` looks for the entry under its AID
      return (if entry.aid = 0 then some entry else none, some .unspecifyFail)
    else return (some entry, some code)

/-- `ap_cmm_peer_assoc_req_action`, for the outcome of the sanity check; `listAlloc` says that there
is memory for it. -/
def apCmmPeerAssocReqAction (ap : AccessPoint) (parsed : Option IeLists)
    (listAlloc respAlloc : Bool) : Checked (AccessPoint × Option AssocStatus) :=
  if !listAlloc then return (ap, none)
  else
    match parsed with
    | none => return (ap, none)
    | some ie =>
      match ap.macTab ie.addr2 with
      | none => return (ap, none)
      | some entry =>
        match ap.mbss entry.apidx with
        | none => return (ap, none)
        | some b => do
          let (entry', response) ← associate ap b entry ie respAlloc
          let b := (noteWps b (clearPairwiseKey b entry) ie).1
          return ((ap.setBss entry.apidx b).setEntry ie.addr2 entry', response)

end Mt7601.Ap
