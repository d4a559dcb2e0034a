/-
# EAPOL-Key frames, MAC table entries and the adapter around them

The data model of the WPA handshake (`common/cmm_wpa.c`, `common/crypt_aes.c`,
`common/crypt_arc4.c`): the packed frame as the source overlays it on the received octets, the
entry of the MAC table that carries the handshake, the configuration its functions read, and what
a step does to the world besides changing that state.

The two single-mode builds are modelled together, `OpMode` selecting one: a station build has the
`CONFIG_STA_SUPPORT` branches, an access point build the `CONFIG_AP_SUPPORT` ones. The optional
parts that are off in the shipped configuration (ad-hoc WPA2, AP client, P2P, WSC, DLS) are left
out. One entry of the MAC table and the BSS it belongs to are enough: no function here looks at a
second one except to send it the same group key.

A block of memory is a list of octets, and a copy past its end makes it longer: functions get the
meaning they have when every buffer is large enough. How far they really reach is a property of
its own.
-/
import Mathlib.Data.BitVec
import Mt7601.Lib.Octets

namespace Mt7601.Wpa

/-! ## 1. Enumerations of the source -/

/-- `NDIS_802_11_AUTHENTICATION_MODE` -/
inductive AuthMode
  | openSystem
  | shared
  | autoSwitch
  | wpa
  | wpaPsk
  | wpaNone
  | wpa2
  | wpa2Psk
  | wpa1Wpa2
  | wpa1PskWpa2Psk
  deriving DecidableEq, Repr

/-- `NDIS_802_11_WEP_STATUS` -/
inductive WepStatus
  | wepEnabled
  | wepDisabled
  | wepKeyAbsent
  | wepNotSupported
  | encryption2Enabled
  | encryption2KeyAbsent
  | encryption3Enabled
  | encryption3KeyAbsent
  | encryption4Enabled
  | encryption4KeyAbsent
  | groupWep40Enabled
  | groupWep104Enabled
  deriving DecidableEq, Repr

/-- `AP_WPA_STATE`; the source compares its values as numbers. -/
inductive WpaState
  | notUse
  | disconnect
  | disconnected
  | initializing
  | authentication
  | authentication2
  | initPmk
  | initPsk
  | ptkStart
  | ptkInitNegotiating
  | ptkInitDone
  | updateKeys
  | integrityFailure
  | keyUpdate
  deriving DecidableEq, Repr

instance : LE WpaState := ⟨fun a b => a.ctorIdx ≤ b.ctorIdx⟩
instance : LT WpaState := ⟨fun a b => a.ctorIdx < b.ctorIdx⟩
instance (a b : WpaState) : Decidable (a ≤ b) := inferInstanceAs (Decidable (a.ctorIdx ≤ b.ctorIdx))
instance (a b : WpaState) : Decidable (a < b) := inferInstanceAs (Decidable (a.ctorIdx < b.ctorIdx))

/-- The rekey states of a group key. -/
inductive GtkState
  | negotiating
  | established
  deriving DecidableEq, Repr

/-- `CIPHER_NONE` to `CIPHER_AES` -/
inductive CipherAlg
  | none
  | wep64
  | wep128
  | tkip
  | aes
  deriving DecidableEq, Repr

/-- `EAPOL_PAIR_MSG_1` to `EAPOL_GROUP_MSG_2` -/
inductive MsgType
  | pairMsg1
  | pairMsg2
  | pairMsg3
  | pairMsg4
  | groupMsg1
  | groupMsg2
  deriving DecidableEq, Repr

instance : LE MsgType := ⟨fun a b => a.ctorIdx ≤ b.ctorIdx⟩
instance (a b : MsgType) : Decidable (a ≤ b) := inferInstanceAs (Decidable (a.ctorIdx ≤ b.ctorIdx))

inductive OpMode
  | sta
  | ap
  deriving DecidableEq, Repr

/-- `SST` of an entry, as far as it is told apart here. -/
inductive Sst
  | notAuth
  | auth
  | assoc
  deriving DecidableEq, Repr

/-- `WPA_802_1X_PORT_SECURED` and `WPA_802_1X_PORT_NOT_SECURED`, which are 1 and 2: a cleared entry
has neither. -/
inductive PortSecured
  | unset
  | secured
  | notSecured
  deriving DecidableEq, Repr

/-- `NDIS_802_11_PRIVACY_FILTER` -/
inductive PrivacyFilter
  | acceptAll
  | filter8021xWep
  deriving DecidableEq, Repr

/-- `bWPA2` -/
def AuthMode.bWPA2 (mode : AuthMode) : Bool :=
  mode = .wpa2 ∨ mode = .wpa2Psk

/-! ## 2. Lengths -/

abbrev lenKeyDescReplay : Nat := 8
abbrev lenKeyDescNonce : Nat := 32
abbrev lenKeyDescIv : Nat := 16
abbrev lenKeyDescMic : Nat := 16
abbrev lenPtk : Nat := 64
abbrev lenPtkKck : Nat := 16
abbrev lenPtkKek : Nat := 16
abbrev lenTk : Nat := 16
abbrev lenTkipMic : Nat := 8
abbrev offsetOfPtkTk : Nat := 32
abbrev offsetOfApTkipTxMic : Nat := 48
abbrev offsetOfApTkipRxMic : Nat := 56
abbrev offsetOfStaTkipRxMic : Nat := 48
abbrev offsetOfStaTkipTxMic : Nat := 56

def lenAesGtk : Nat := 16
def lenTkipGtk : Nat := 32
def lenAesTk : UInt8 := 16
def lenTkipTk : UInt8 := 32
def lenWep64 : Nat := 5
def lenWep128 : Nat := 13
def maxLenOfRsnie : Nat := 255
def maxLenGtk : Nat := 32

/-- `LENGTH_802_11`, `LENGTH_802_1_H`, `LENGTH_EAPOL_H`, `MIN_LEN_OF_EAPOL_KEY_MSG` -/
def length80211 : Nat := 24
def length8021H : Nat := 8
def lengthEapolH : Nat := 4
def minLenOfEapolKeyMsg : Nat := 95

/-! ## 3. The frame -/

abbrev MacAddr := Octets 6

/-- `KEY_INFO`, a bit field of two octets. -/
structure KeyInfo where
  keyMic : Bool := false
  secure : Bool := false
  error : Bool := false
  request : Bool := false
  ekdDl : Bool := false
  rsvd : BitVec 3 := 0
  keyDescVer : BitVec 3 := 0
  keyType : Bool := false
  keyIndex : BitVec 2 := 0
  install : Bool := false
  keyAck : Bool := false

/-- `KEY_DESC_TKIP`, `KEY_DESC_AES`, `KEY_DESC_EXT` -/
abbrev keyDescTkip : BitVec 3 := 1
abbrev keyDescAes : BitVec 3 := 2
abbrev keyDescExt : BitVec 3 := 3

/-- `PAIRWISEKEY`, `GROUPKEY` -/
abbrev pairwiseKeyType : Bool := true
abbrev groupKeyType : Bool := false

/-- The two octets of the field, the lower bits of each first in the declaration. -/
def KeyInfo.octets (k : KeyInfo) : List UInt8 :=
  [.ofBitVec (k.rsvd ++ (BitVec.ofBool k.ekdDl ++ (BitVec.ofBool k.request ++
      (BitVec.ofBool k.error ++ (BitVec.ofBool k.secure ++ BitVec.ofBool k.keyMic))))),
   .ofBitVec (BitVec.ofBool k.keyAck ++ (BitVec.ofBool k.install ++ (k.keyIndex ++
      (BitVec.ofBool k.keyType ++ k.keyDescVer))))]

/-- `EAPOL_PACKET` with its `KEY_DESCRIPTER`. `keyData` is everything the flexible array reaches:
the key data of the frame and whatever the buffer holds behind it. -/
structure EapolPacket where
  proVer : UInt8 := 0
  proType : UInt8 := 0
  bodyLen : UInt16 := 0
  type : UInt8 := 0
  keyInfo : KeyInfo := {}
  keyLength : Octets 2 := .zero 2
  replayCounter : Octets lenKeyDescReplay := .zero lenKeyDescReplay
  keyNonce : Octets lenKeyDescNonce := .zero lenKeyDescNonce
  keyIv : Octets lenKeyDescIv := .zero lenKeyDescIv
  keyRsc : Octets 8 := .zero 8
  keyId : Octets 8 := .zero 8
  keyMic : Octets lenKeyDescMic := .zero lenKeyDescMic
  keyDataLen : UInt16 := 0
  keyData : List UInt8 := []

/-- A length field, most significant octet first (`SET_UINT16_TO_ARRARY`). -/
def uint16Octets (v : UInt16) : List UInt8 :=
  [(v >>> 8).toUInt8, v.toUInt8]

/-- The octets of the frame in the order they are sent. -/
def EapolPacket.octets (pkt : EapolPacket) : List UInt8 :=
  [pkt.proVer, pkt.proType] ++ uint16Octets pkt.bodyLen ++ [pkt.type] ++ pkt.keyInfo.octets ++
    pkt.keyLength.toList ++ pkt.replayCounter.toList ++ pkt.keyNonce.toList ++ pkt.keyIv.toList ++
    pkt.keyRsc.toList ++ pkt.keyId.toList ++ pkt.keyMic.toList ++ uint16Octets pkt.keyDataLen ++
    pkt.keyData

/-- `EAPOL_VER`, `EAPOL_VER2`, `WPA1_KEY_DESC`, `WPA2_KEY_DESC` and the type of a key frame. -/
abbrev eapolVer : UInt8 := 1
abbrev eapolVer2 : UInt8 := 2
abbrev wpa1KeyDesc : UInt8 := 0xfe
abbrev wpa2KeyDesc : UInt8 := 0x02
abbrev eapolKey : UInt8 := 3

/-- `MLME_QUEUE_ELEM`, a received frame: the transmitter of its 802.11 header, its length with
that header, and the overlay behind the header and the LLC octets. -/
structure Elem where
  addr2 : MacAddr
  msgLen : UInt64
  pkt : EapolPacket

/-! ## 4. The entry and its adapter -/

/-- `CIPHER_KEY`, the fields that are written here. -/
structure CipherKey where
  key : Octets 16 := .zero 16
  txMic : Octets lenTkipMic := .zero lenTkipMic
  rxMic : Octets lenTkipMic := .zero lenTkipMic
  cipherAlg : CipherAlg := .none
  keyLen : Nat := 0
  deriving DecidableEq

/-- `MAC_TABLE_ENTRY`, the fields the handshake works on. -/
structure MacTableEntry where
  entryClient : Bool := false
  addr : MacAddr := .zero 6
  apidx : UInt8 := 0
  authMode : AuthMode := .openSystem
  wepStatus : WepStatus := .wepEnabled
  sst : Sst := .notAuth
  wpaState : WpaState := .notUse
  gtkState : GtkState := .negotiating
  portSecured : PortSecured := .unset
  privacyFilter : PrivacyFilter := .acceptAll
  reTryCounter : UInt8 := 0
  rCounter : Octets lenKeyDescReplay := .zero lenKeyDescReplay
  aNonce : Octets lenKeyDescNonce := .zero lenKeyDescNonce
  sNonce : Octets lenKeyDescNonce := .zero lenKeyDescNonce
  ptk : Octets lenPtk := .zero lenPtk
  pairwiseKey : CipherKey := {}
  pmkidCacheIdx : Option (Fin 8) := none

/-- `STA_ADMIN_CONFIG`, the fields that are read or written here. The length octet of an
information element is the length of its list, so a list that is too long cannot be built. -/
structure StaCfg where
  pmk : Octets 32
  ptk : Octets lenPtk
  gtk : List UInt8
  groupCipher : WepStatus
  rsnIe : { l : List UInt8 // l.length ≤ 255 }
  defaultKeyId : UInt8
  portSecured : PortSecured

/-- `AP_BSSID_INFO`, one place of the PMKID cache. -/
structure ApBssidInfo where
  valid : Bool
  mac : MacAddr
  refreshTime : UInt64
  pmkid : Octets 16
  pmk : Octets 32
  deriving DecidableEq

/-- `MULTISSID_STRUCT`, the BSS an entry of an access point belongs to. -/
structure MultissidStruct where
  bssid : MacAddr
  authMode : AuthMode
  groupKeyWepStatus : WepStatus
  pmk : Octets 32
  gmk : Octets 32
  gNonce : Octets 32
  gtk : Octets 32
  defaultKeyId : UInt8
  rsnIe0 : { l : List UInt8 // l.length ≤ 255 }
  rsnIe1 : { l : List UInt8 // l.length ≤ 255 }
  pmkidCache : List.Vector ApBssidInfo 8

/-- `RTMP_ADAPTER`: the mode of the build, the configuration, the shared keys of the BSS, and the
entry. -/
structure Adapter where
  opMode : OpMode
  currentAddress : MacAddr
  staCfg : StaCfg
  bssidNum : UInt8
  maxMbssidNum : UInt8
  mbss : MultissidStruct
  sharedKey : List.Vector CipherKey 4
  entry : MacTableEntry

/-! ## 5. What a step meets and what it does -/

/-- The places where a step asks for memory. -/
inductive AllocSite
  | keyData
  | unwrap
  | arc4
  | prf
  | outFrame
  | keyDataPool
  | wrap
  | mic
  | mlme
  deriving DecidableEq, Repr

/-- What a step meets that the frame does not decide: which allocations succeed, the random
number it draws, the packet number of the group key, and what uninitialised memory holds. -/
structure Env where
  alloc : AllocSite → Bool
  random : Octets 32
  txTsc : Octets 6
  now : UInt64
  closed : Bool
  stackPtk : Octets lenPtk
  stackGtk : Octets 32
  heap : List UInt8
  pool : List UInt8

/-- No allocation of the step fails. -/
def Env.allocs (env : Env) : Prop := ∀ site, env.alloc site = true

/-- What a step does besides changing the adapter. -/
inductive Effect
  /-- A frame given to `RTMPToWirelessSta`, and whether it goes out in the clear. -/
  | send (dst src : MacAddr) (pkt : EapolPacket) (bClearFrame : Bool)
  /-- `AsicAddPairwiseKeyEntry`, which also initialises the packet number of the key. -/
  | addPairwiseKey (key : CipherKey)
  | removePairwiseKey
  /-- `AsicAddSharedKeyEntry` -/
  | addSharedKey (keyIdx : UInt8) (key : CipherKey)
  /-- `STA_PORT_SECURED` -/
  | staPortSecured
  /-- `IW_REPLAY_COUNTER_DIFF_EVENT_FLAG` and the other wireless events. -/
  | replayCounterDiff
  | micDiff
  | setKeyDoneWpa1
  | setKeyDoneWpa2
  | groupHsTimeout
  | pairwiseHsTimeout
  | deauth
  | counterMeasure
  /-- A copy through a pointer that is `NULL`. -/
  | nullCopy

/-- Why a frame was rejected. -/
inductive Reject
  | noKeyDataBuffer
  | replayCounter
  | mic
  | keyData
  | aNonce
  deriving DecidableEq, Repr

/-- The `return` a handler left through: before it looked at the frame, at a check of the frame,
where it had no memory for the answer, or at its end. The source does not record it. -/
inductive Verdict
  | ignored
  | rejected (why : Reject)
  | outOfMemory
  | accepted
  deriving DecidableEq, Repr

/-- What a handler leaves behind. -/
structure Outcome where
  ad : Adapter
  verdict : Verdict := .ignored
  out : List Effect := []

end Mt7601.Wpa
