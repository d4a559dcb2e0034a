/-
# The group key of an access point: how it is changed, and which key a group frame gets

The periodic change of the group key (`GREKEYPeriodicExec` of `ap/ap_wpa.c`, the start-up of a BSS
in `ap/ap.c`) against the choice the transmit path makes for each frame (`APFindCipherAlgorithm` of
`ap/ap_data.c`). A turn of the timer that finds the interval exceeded moves `DefaultKeyId` on,
derives the new key and sends it to the stations; the shared key table gets it when a count-down
ends, two turns later. The transmit path looks up the table under `DefaultKeyId` at any time.

The derivation of the key, the first message of the group handshake and the entry of the shared key
table are those of the handshake's model. The build has 802.1X and neither an AP client, WAPI, P2P
nor encryption in software.
-/
import Mt7601.Lib.Run
import Mt7601.Wpa.Handlers

namespace Mt7601.Ap

open Wpa

/-! ## 1. A BSS and its timer -/

/-- `TIME_REKEY`, `PKT_REKEY` and `DISABLE_REKEY` -/
inductive RekeyMethod
  | time
  | pkt
  | disable
  deriving DecidableEq, Repr

/-- `MULTISSID_STRUCT` with its row of the shared key table (both in `ad`) and the fields of the
group key's timer. -/
structure Bss where
  ad : Adapter
  apidx : UInt8
  wepStatus : WepStatus
  ieee8021x : Bool
  reKeyMethod : RekeyMethod
  reKeyInterval : UInt64
  rekeyCounter : UInt64
  rekeyCountDown : UInt8
  rekeyTimerRunning : Bool

/-- `SharedKey[apidx][KeyIdx]` -/
def Bss.sharedKeyAt (b : Bss) (keyIdx : UInt8) : CipherKey :=
  if h : keyIdx.toNat < 4 then b.ad.sharedKey.get ⟨keyIdx.toNat, h⟩ else {}

/-- `IS_WPA_CAPABILITY`: the modes are compared as numbers. -/
def isWpaCapability (mode : AuthMode) : Bool :=
  AuthMode.wpa.ctorIdx ≤ mode.ctorIdx ∧ mode.ctorIdx ≤ AuthMode.wpa1PskWpa2Psk.ctorIdx

/-- The new group key of a BSS: `GenRandom`, then `WpaDeriveGTK`. -/
def deriveGroupKey (C : Crypto) (env : Env) (ad : Adapter) : Adapter :=
  { ad with
    mbss.gNonce := env.random
    mbss.gtk := wpaDeriveGtk C env ad.mbss.gmk env.random ad.mbss.bssid }

/-- `WPAInstallSharedKey` as the access point calls it: the group key of the BSS, under
`DefaultKeyId`. -/
def installGroupKey (b : Bss) : Bss × List Effect :=
  let (ad, out) := wpaInstallSharedKey b.ad b.ad.mbss.groupKeyWepStatus b.apidx
    b.ad.mbss.defaultKeyId true b.ad.mbss.gtk.toList lenTkipGtk
  ({ b with ad }, out)

/-- The group cipher `RTMPMakeRSNIE` gives a BSS. -/
def groupKeyWepStatusOf (wepStatus : WepStatus) : WepStatus :=
  if wepStatus = .encryption4Enabled then .encryption2Enabled else wepStatus

/-- The BSS at the start, its first key derived: `APStartUp` up to the install. -/
def deriveFirstKey (C : Crypto) (env : Env) (b : Bss) : Bss :=
  let ad := { b.ad with
    mbss.groupKeyWepStatus := groupKeyWepStatusOf b.wepStatus
    mbss.defaultKeyId :=
      if isWpaCapability b.ad.mbss.authMode then 1 else b.ad.mbss.defaultKeyId }
  { b with ad := deriveGroupKey C env ad }

/-- The security part of `APStartUp` for a BSS with TKIP, AES or both. -/
def startUp (C : Crypto) (env : Env) (b : Bss) : Bss :=
  (installGroupKey (deriveFirstKey C env b)).1

/-- What a turn of the timer meets: `StaCount`, the MAC table with what each message to a station
meets, and what the derivation of the key meets. -/
structure Turn where
  staCount : UInt8
  macTab : List (MacTableEntry × Env)
  env : Env

/-- `temp_counter` and what it leaves in `REKEYCOUNTER`; `none` is the `return`. -/
def tempCounter (b : Bss) : Option (UInt64 × UInt64) :=
  if b.reKeyMethod = .time ∧ b.rekeyCounter < 0xffffffff then
    some (b.rekeyCounter + 1, b.rekeyCounter + 1)
  else if b.reKeyMethod = .pkt then some (b.rekeyCounter / 1000, b.rekeyCounter)
  else none

/-- The first messages of the group handshake, to the stations of the BSS that have finished the
other one. -/
def start2WayGroupHS (C : Crypto) (b : Bss) (t : Turn) : List Effect :=
  t.macTab.flatMap fun (entry, env) =>
    if entry.entryClient ∧ entry.wpaState = .ptkInitDone ∧ entry.apidx = b.apidx then
      (wpaStart2WayGroupHS C env
        { b.ad with entry := { entry with gtkState := .negotiating } }).2
    else []

/-- A new key under the other index, told to the stations. It is not installed here. -/
def changeGroupKey (C : Crypto) (b : Bss) (t : Turn) : Bss × List Effect :=
  let ad := { b.ad with
    mbss.defaultKeyId := if b.ad.mbss.defaultKeyId = 1 then 2 else 1 }
  let b := { b with ad := deriveGroupKey C t.env ad }
  (b, start2WayGroupHS C b t)

/-- The turn's share of the count-down, which installs the key at its end. -/
def countDown (b : Bss) : Bss × List Effect :=
  if 0 < b.rekeyCountDown then
    let b := { b with rekeyCountDown := b.rekeyCountDown - 1 }
    if b.rekeyCountDown = 0 then installGroupKey b else (b, [])
  else (b, [])

/-- The interval is exceeded: the count-down starts, and if there are stations the key changes. -/
def intervalExcess (C : Crypto) (b : Bss) (t : Turn) : Bss × List Effect :=
  let b := { b with rekeyCounter := 0, rekeyCountDown := 3 }
  if 0 < t.staCount then changeGroupKey C b t else (b, [])

/-- `GREKEYPeriodicExec`, for the timer of this BSS. -/
def grekeyPeriodicExec (C : Crypto) (b : Bss) (t : Turn) : Bss × List Effect :=
  if !isWpaCapability b.ad.mbss.authMode then (b, [])
  else
    match tempCounter b with
    | none => (b, [])
    | some (temp, counter) =>
      let b := { b with rekeyCounter := counter }
      let (b, told) := if b.reKeyInterval < temp then intervalExcess C b t else (b, [])
      let (b, installed) := countDown b
      (b, told ++ installed)

/-! ## 2. The choice of the transmit path -/

/-- `TX_BLK`, what the choice reads of it: the marks of the packet, the pairwise key of the
receiver's entry (`none` for a group address) and the length behind the Ethernet header. -/
structure OutFrame where
  eapol : Bool
  clearEapFrame : Bool
  pairwiseKey : Option CipherKey
  srcBufLen : UInt64

/-- What the choice leaves in the block: `CipherAlg`, `pKey` and `KeyIdx`. -/
structure CipherChoice where
  cipherAlg : CipherAlg := .none
  pKey : Option CipherKey := none
  keyIdx : UInt8 := 0
  deriving DecidableEq

/-- A key of a table is pointed at unless its cipher is `CIPHER_NONE`. -/
def CipherChoice.ofKey (key : CipherKey) (keyIdx : UInt8) : CipherChoice where
  cipherAlg := key.cipherAlg
  pKey := if key.cipherAlg = .none then none else some key
  keyIdx

/-- `APFindCipherAlgorithm` -/
def apFindCipherAlgorithm (b : Bss) (f : OutFrame) : CipherChoice :=
  let defaultKeyId := b.ad.mbss.defaultKeyId
  if f.eapol ∨ (b.wepStatus = .wepEnabled ∧ b.ieee8021x) ∨ b.wepStatus = .encryption2Enabled ∨
      b.wepStatus = .encryption3Enabled ∨ b.wepStatus = .encryption4Enabled then
    if f.clearEapFrame then {}
    else
      match f.pairwiseKey with
      | none => .ofKey (b.sharedKeyAt defaultKeyId) defaultKeyId
      | some key => .ofKey key 0
  else if b.wepStatus = .wepEnabled then .ofKey (b.sharedKeyAt defaultKeyId) defaultKeyId
  else {}

/-- A group-addressed data frame that is not an EAPOL frame. Only those are sent in the clear. -/
def groupFrame (srcBufLen : UInt64) : OutFrame where
  eapol := false
  clearEapFrame := false
  pairwiseKey := none
  srcBufLen

/-- The part of `AP_Legacy_Frame_Tx` that counts group frames for the change of the key. -/
def recordMcast (b : Bss) (f : OutFrame) : Bss :=
  if b.rekeyTimerRunning ∧ b.reKeyMethod = .pkt then
    { b with rekeyCounter := b.rekeyCounter + f.srcBufLen }
  else b

end Mt7601.Ap
