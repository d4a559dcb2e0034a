/-
# P2P attributes and the parsers that walk over them

`P2pParseSubElmt`, `P2pParseGroupInfoAttribute`, `P2pParseNoASubElmt`, `P2pParseExtListenSubElmt`
and `P2pParseManageSubElmt` (`common/p2p_packet.c`), with `P2PParseWPSIE`, the reads of
`P2pHandleNoAAttri` (`common/p2p.c`) and the table of peers a group info attribute is entered in
(`common/p2p_table.c`). A parser is given the elements of a frame; within an element for Wi-Fi
Direct the attributes have an identifier, two octets of length and a value.

A read outside these octets, a write outside the buffer it is for and a subtraction that wraps stop a
parser (`Checked`). `Octet` is an array of `CHAR` here, so that an octet from 128 on is negative
where the code computes with it.
-/
import Mt7601.Lib.Checked
import Mt7601.Lib.Octets

namespace Mt7601.P2p

/-! ## 1. Reading and storing -/

/-- The octets handed to a parser, `MsgLen` of them. -/
abbrev Body := List UInt8

/-- `WIFIDIRECT_OUI` -/
def wifidirectOui : List UInt8 := [0x50, 0x6f, 0x9a, 0x09]

/-- `WPS_OUI` -/
def wpsOui : List UInt8 := [0x00, 0x50, 0xf2, 0x04]

def octetAt (msg : Body) (i : Nat) : UInt8 := msg.getD i 0

/-- A number of two octets, as it is sent. -/
def be16 (msg : Body) (i : Nat) : Nat := 256 * (octetAt msg i).toNat + (octetAt msg (i + 1)).toNat

/-- A number of `n` octets as the processor reads it. -/
def leVal (msg : Body) (i n : Nat) : Nat := beVal (Mem.read msg i n).reverse

def isAt (msg : Body) (l : List UInt8) (i : Nat) : Bool := Mem.read msg i l.length = l

/-- A `CHAR`. -/
def charVal (b : UInt8) : Int := if b.toNat < 128 then b.toNat else b.toNat - 256

def readOctet (msg : Body) (i : Nat) : Checked UInt8 := do
  Checked.access msg.length i 1
  return octetAt msg i

def readBe16 (msg : Body) (i : Nat) : Checked Nat := do
  Checked.access msg.length i 2
  return be16 msg i

def readLe (msg : Body) (i n : Nat) : Checked Nat := do
  Checked.access msg.length i n
  return leVal msg i n

/-- `RTMPEqualMemory` -/
def readEqual (msg : Body) (l : List UInt8) (i : Nat) : Checked Bool := do
  Checked.access msg.length i l.length
  return isAt msg l i

/-- `RTMPMoveMemory` of `n` octets to a place in a buffer. -/
def moveMemory (msg : Body) (i n : Nat) {m : Nat} (dst : Octets m) (off : Nat) :
    Checked (Octets m) := do
  Checked.access msg.length i n
  Checked.access m off n
  return .ofList m (Mem.write dst.toList off (Mem.read msg i n))

/-- An output of a parser: nothing for a pointer that is `NULL`. -/
abbrev Out (α : Type) := Option α

/-- `if (p != NULL) *p = Octet[i]` -/
def octetTo (msg : Body) (i : Nat) : Out UInt8 → Checked (Out UInt8)
  | none => return none
  | some _ => do return some (← readOctet msg i)

/-- `if (p != NULL) *p = be2cpu16(..)` -/
def wordTo (msg : Body) (i : Nat) : Out Nat → Checked (Out Nat)
  | none => return none
  | some _ => do return some (← readBe16 msg i)

/-- `if (p != NULL) RTMPMoveMemory(p, .., n)` -/
def moveTo (msg : Body) (i n : Nat) {m : Nat} : Out (Octets m) → Checked (Out (Octets m))
  | none => return none
  | some dst => do return some (← moveMemory msg i n dst 0)

/-! ## 2. The loops -/

/-- The attributes, by their identifiers. -/
inductive SubId
  | status
  | minorReason
  | cap
  | deviceId
  | ownerIntent
  | configTimeout
  | listenChannel
  | groupBssid
  | extListenTiming
  | interfaceAddr
  | manageability
  | channelList
  | noa
  | deviceInfo
  | groupInfo
  | groupId
  | interface
  | opChannel
  | inviteFlag
  deriving DecidableEq, Repr

/-- `SUBID_P2P_STATUS` to `SUBID_P2P_INVITE_FLAG` -/
def SubId.ofEid (eid : UInt8) : Option SubId :=
  [SubId.status, .minorReason, .cap, .deviceId, .ownerIntent, .configTimeout, .listenChannel,
    .groupBssid, .extListenTiming, .interfaceAddr, .manageability, .channelList, .noa, .deviceInfo,
    .groupInfo, .groupId, .interface, .opChannel, .inviteFlag][eid.toNat]?

/-- `P2PEID_STRUCT`: where it is, its identifier, and the length the loop gives it. -/
structure Attr where
  pos : Nat
  eid : UInt8
  len : Nat
  deriving DecidableEq, Repr

/-- The offset of `Octet[i]`. -/
def Attr.octet (a : Attr) (i : Nat) : Nat := a.pos + 3 + i

/-- The offset behind the attribute. -/
def Attr.fin (a : Attr) : Nat := a.pos + 3 + a.len

/-- How a loop computes the length of an attribute behind the first, and whether it ends at the end
of the element. -/
structure AttrLoop where
  hi : Nat
  stops : Bool

/-- The length an attribute has for a loop that takes the second octet `hi` times. -/
def attriLen (msg : Body) (hi pos : Nat) : Nat :=
  (octetAt msg (pos + 1)).toNat + (octetAt msg (pos + 2)).toNat * hi

/-- `AttriLen = Len[0] + Len[1] * hi` -/
def readAttriLen (msg : Body) (hi pos : Nat) : Checked Nat := do
  let lo ← readOctet msg (pos + 1)
  let high ← readOctet msg (pos + 2)
  return lo.toNat + high.toNat * hi

variable {σ ρ : Type}

/-- The loop over the attributes of an element. Its handler goes on with a state, or the parser
returns from it. -/
def attrLoop (w : AttrLoop) (msg : Body) (handler : σ → Attr → Checked (σ ⊕ ρ)) (total : Nat)
    (s : σ) (pos length len : Nat) : Checked (σ ⊕ ρ) :=
  if length + 3 + len ≤ total then do
    let eid ← readOctet msg pos
    match ← handler s ⟨pos, eid, len⟩ with
    | .inr r => return .inr r
    | .inl s =>
      if w.stops ∧ total ≤ length + 3 + len then return .inl s
      else do
        let next ← readAttriLen msg w.hi (pos + 3 + len)
        attrLoop w msg handler total s (pos + 3 + len) (length + 3 + len) next
  else return .inl s
termination_by total - length

/-- The loop over the elements, with a handler that also says whether to go on to the next. -/
def elementLoop (msg : Body) (handler : σ → Nat → Checked ((σ × Bool) ⊕ ρ)) (s : σ)
    (off left : Nat) : Checked (σ ⊕ ρ) := do
  let len ← readOctet msg (off + 1)
  if len.toNat + 2 ≤ left then
    match ← handler s off with
    | .inr r => return .inr r
    | .inl (s, more) =>
      if more then elementLoop msg handler s (off + 2 + len.toNat) (left - len.toNat - 2)
      else return .inl s
  else return .inl s
termination_by left

/-- The attributes of an element for Wi-Fi Direct, in the parsers that compute every length with
`Len[1] * 8` and compare with the length of the element. -/
def wifiDirectAttrs (msg : Body) (handler : σ → Attr → Checked (σ ⊕ ρ)) (s : σ) (off : Nat) :
    Checked (σ ⊕ ρ) := do
  let len ← readAttriLen msg 8 (off + 6)
  attrLoop ⟨8, false⟩ msg handler (octetAt msg (off + 1)).toNat s (off + 6) 0 len

/-- An element in a parser that looks at all of them. -/
def everyElement (msg : Body) (handler : σ → Attr → Checked (σ ⊕ ρ)) (s : σ) (off : Nat) :
    Checked ((σ × Bool) ⊕ ρ) := do
  if ← readEqual msg wifidirectOui (off + 2) then
    match ← wifiDirectAttrs msg handler s off with
    | .inr r => return .inr r
    | .inl s => return .inl (s, true)
  else return .inl (s, true)

/-- What a parser that never returns from its loops comes to. -/
def fallThrough (x : Checked (σ ⊕ Empty)) : Checked σ := do
  match ← x with
  | .inl s => return s

/-! ## 3. Extended listening and manageability -/

/-- `ExtListenPeriod`, `ExtListenInterval` -/
structure ExtListen where
  period : Nat
  interval : Nat
  deriving DecidableEq

def extListenAttr (msg : Body) (s : ExtListen) (a : Attr) : Checked (ExtListen ⊕ Empty) :=
  if SubId.ofEid a.eid = some .extListenTiming ∧ a.len = 4 then do
    let period ← readLe msg (a.octet 0) 2
    let interval ← readLe msg (a.octet 2) 2
    return .inl
      ⟨if 0 < period then period else s.period, if 0 < interval then interval else s.interval⟩
  else return .inl s

/-- `P2pParseExtListenSubElmt` -/
def p2pParseExtListenSubElmt (msg : Body) (s : ExtListen) : Checked ExtListen :=
  if msg.length = 0 then return s
  else fallThrough (elementLoop msg (everyElement msg (extListenAttr msg)) s 0 msg.length)

/-- The outputs of `P2pParseManageSubElmt`. -/
structure Manage where
  channel : UInt8
  numOfP2pOtherAttribute : Out UInt8
  totalNumOfP2pAttribute : Out UInt8
  manageability : Out UInt8
  minorReason : Out UInt8
  deriving DecidableEq

def manageAttr (msg : Body) (s : Manage) (a : Attr) : Checked (Manage ⊕ Empty) :=
  let total := s.totalNumOfP2pAttribute.map (· + 1)
  let other := s.numOfP2pOtherAttribute.map (· + 1)
  match SubId.ofEid a.eid with
  | some .minorReason => do
    let minorReason ← octetTo msg (a.octet 0) s.minorReason
    return .inl { s with
      totalNumOfP2pAttribute := total, numOfP2pOtherAttribute := other, minorReason }
  | some .manageability => do
    let manageability ← octetTo msg (a.octet 0) s.manageability
    return .inl { s with totalNumOfP2pAttribute := total, manageability }
  | _ => return .inl { s with totalNumOfP2pAttribute := total, numOfP2pOtherAttribute := other }

/-- `IE_CHANNEL_USAGE` -/
def ieChannelUsage : UInt8 := 97

def channelUsage (msg : Body) (s : Manage) (off : Nat) : Checked Manage := do
  let eid ← readOctet msg off
  if eid = ieChannelUsage then
    let channel ← readOctet msg (off + 4)
    return { s with channel }
  else return s

/-- `P2pParseManageSubElmt` -/
def p2pParseManageSubElmt (msg : Body) (s : Manage) : Checked Manage :=
  let element (s : Manage) (off : Nat) : Checked ((Manage × Bool) ⊕ Empty) := do
    let s ← channelUsage msg s off
    everyElement msg (manageAttr msg) s off
  fallThrough (elementLoop msg element
    { s with
      numOfP2pOtherAttribute := s.numOfP2pOtherAttribute.map fun _ => 0
      totalNumOfP2pAttribute := s.totalNumOfP2pAttribute.map fun _ => 0 } 0 msg.length)

/-! ## 4. Notice of absence -/

/-- What is kept of a notice: the descriptor, the windows, and whether there was one. -/
structure Noa where
  ctWindow : UInt8
  token : UInt8
  count : UInt8
  duration : Nat
  interval : Nat
  startTime : Nat
  index : Nat
  bNoAAttriExist : Bool
  deriving DecidableEq

/-- What is done with a notice that was read, and without one: nothing of it looks at the frame. -/
structure NoaActions where
  start : Noa → Noa × Bool
  stopNoa : Noa → Noa
  absent : Noa → Noa

/-- `P2pHandleNoAAttri` -/
def p2pHandleNoAAttri (act : NoaActions) (msg : Body) (s : Noa) (pos : Nat) :
    Checked (Noa × Bool) := do
  let noaLen ← readOctet msg (pos + 1)
  if noaLen = 2 then
    let ctWindow ← readOctet msg (pos + 4)
    return (act.stopNoa { s with ctWindow }, true)
  else
    let token ← readOctet msg (pos + 3)
    let ctWindow ← readOctet msg (pos + 4)
    let count ← readOctet msg (pos + 5)
    let duration ← readLe msg (pos + 6) 4
    let interval ← readLe msg (pos + 10) 4
    let startTime ← readLe msg (pos + 14) 4
    let noa := { s with ctWindow, count, duration, interval, startTime }
    return if s.token = token then (noa, false) else act.start { noa with token }

def noaAttr (act : NoaActions) (msg : Body) (wcid : Nat) (s : Noa) (a : Attr) :
    Checked (Noa ⊕ Empty) :=
  if SubId.ofEid a.eid = some .noa then do
    let (s, brc) ← p2pHandleNoAAttri act msg { s with bNoAAttriExist := true } a.pos
    return .inl (if brc then { s with index := wcid } else s)
  else return .inl s

/-- `P2pParseNoASubElmt` -/
def p2pParseNoASubElmt (act : NoaActions) (msg : Body) (wcid : Nat) (s : Noa) : Checked Noa :=
  if msg.length = 0 then return s
  else do
    let s ← fallThrough (elementLoop msg (everyElement msg (noaAttr act msg wcid))
      { s with bNoAAttriExist := false } 0 msg.length)
    return if s.bNoAAttriExist then s else act.absent s

/-! ## 5. The general parser -/

/-- `MAX_NUM_OF_CHANNELS` -/
def maxNumOfChannels : Nat := 54

/-- The outputs of `P2pParseSubElmt`, and what of the channel list is left. -/
structure SubElmt where
  dpid : Out Nat
  groupCap : UInt8
  deviceCap : UInt8
  deviceName : Out (Octets 32)
  deviceNameLen : Out UInt8
  devAddr : Out (Octets 6)
  interFAddr : Out (Octets 6)
  bssidAddr : Out (Octets 6)
  ssidLen : Out UInt8
  ssid : Out (Octets 32)
  configMethod : Out Nat
  wpsConfigMethod : Out Nat
  devType : Out (Octets 8)
  listenChannel : Out UInt8
  opChannel : Out UInt8
  channelList : Out (Octets maxNumOfChannels)
  intent : Out UInt8
  statusCode : Out UInt8
  inviteFlag : Out UInt8
  channelListLeft : Fin (maxNumOfChannels + 1) := Fin.last maxNumOfChannels

/-- A stretch at an offset that was computed with signs. -/
def moveFrom (msg : Body) (i : Int) (n : Nat) {m : Nat} (dst : Octets m) : Checked (Octets m) :=
  if 0 ≤ i then moveMemory msg i.toNat n dst 0 else .error .outside

/-- `WSC_ID_DEVICE_NAME`, `WSC_ID_DEVICE_PWD_ID`, `WSC_ID_CONFIG_METHODS` -/
def wscIdDeviceName : Nat := 0x1011
def wscIdDevicePwdId : Nat := 0x1012
def wscIdConfigMethods : Nat := 0x1008

/-- An attribute of a WPS element. `names` says that the outputs for the name are given. -/
def wpsAttr (msg : Body) (names : Bool) (s : SubElmt) (type pos len : Nat) : Checked SubElmt :=
  if type = wscIdDeviceName then
    if names then do
      let deviceName ← moveTo msg pos 32 s.deviceName
      return { s with
        deviceName
        deviceNameLen :=
          if s.deviceName.isSome then s.deviceNameLen.map fun _ => UInt8.ofNat len
          else s.deviceNameLen }
    else return s
  else if type = wscIdDevicePwdId then do
    let dpid ← wordTo msg pos s.dpid
    return { s with dpid }
  else if type = wscIdConfigMethods then do
    let wpsConfigMethod ← wordTo msg pos s.wpsConfigMethod
    return { s with wpsConfigMethod }
  else return s

/-- The loop of `P2PParseWPSIE`; `length` is what is left of the element. -/
def wpsLoop (msg : Body) (names : Bool) (s : SubElmt) (pos length : Nat) : Checked SubElmt :=
  if 4 < length then do
    let type ← readBe16 msg pos
    let len ← readBe16 msg (pos + 2)
    let s ← wpsAttr msg names s type (pos + 4) len
    -- `Length` is unsigned
    if len ≤ length - 4 then wpsLoop msg names s (pos + 4 + len) (length - 4 - len)
    else .error .underflow
  else return s
termination_by length

/-- `P2PParseWPSIE`, of `wpsLen` octets from an offset on. -/
def p2pParseWpsIe (msg : Body) (names : Bool) (s : SubElmt) (pos wpsLen : Nat) :
    Checked SubElmt := do
  let s := if names then { s with deviceNameLen := s.deviceNameLen.map fun _ => 0 } else s
  let length ← Checked.sub wpsLen 6
  wpsLoop msg names s (pos + 4) length

/-- What is left when `n` more channels are taken. -/
def takeChannels (left : Fin (maxNumOfChannels + 1)) (n : Nat) : Fin (maxNumOfChannels + 1) :=
  ⟨left - n, Nat.lt_of_le_of_lt (Nat.sub_le _ _) left.2⟩

/-- A channel list behind those before it. A count that is negative is taken for a length. -/
def channelListAttr (msg : Body) (s : SubElmt) (a : Attr) : Checked SubElmt :=
  match s.channelList with
  | none => return s
  | some dst => do
    let n ← readOctet msg (a.octet 4)
    if charVal n < 0 then
      let channelList ← moveMemory msg (a.octet 5) (2 ^ 64 - (256 - n.toNat)) dst
        (maxNumOfChannels - s.channelListLeft)
      return { s with channelList := some channelList }
    else if n.toNat ≤ s.channelListLeft then
      let channelList ← moveMemory msg (a.octet 5) n.toNat dst
        (maxNumOfChannels - s.channelListLeft)
      return { s with
        channelList := some channelList
        channelListLeft := takeChannels s.channelListLeft n.toNat }
    else return s

/-- The SSID of a group. Its length is taken from the first of the two octets. -/
def groupIdAttr (msg : Body) (s : SubElmt) (a : Attr) : Checked SubElmt :=
  let len := (octetAt msg (a.pos + 1)).toNat
  if s.ssid.isSome ∧ 6 < len ∧ len ≤ 38 then do
    let ssid ← moveTo msg (a.octet 6) (len - 6) s.ssid
    return { s with ssid, ssidLen := s.ssidLen.map fun _ => UInt8.ofNat (len - 6) }
  else return s

/-- Where a device info attribute has its name: `offset` is a `UCHAR`. -/
def nameOffset (types : UInt8) : Nat := ((17 + charVal types * 8) % 256).toNat

/-- The name of a device. It is looked for at one offset and copied from another. -/
def deviceNameAttr (msg : Body) (s : SubElmt) (a : Attr) : Checked SubElmt := do
  let types ← readOctet msg (a.octet 16)
  let type ← readBe16 msg (a.octet (nameOffset types))
  let len ← readBe16 msg (a.octet (nameOffset types + 2))
  if type = wscIdDeviceName ∧ len ≤ 32 then
    match s.deviceName with
    | none => return s
    | some dst => do
      let deviceName ← moveFrom msg (a.octet 21 + charVal types * 8) len dst
      return { s with
        deviceName := some deviceName
        deviceNameLen := s.deviceNameLen.map fun _ => UInt8.ofNat len }
  else return s

def deviceInfoAttr (msg : Body) (s : SubElmt) (a : Attr) : Checked SubElmt := do
  let devAddr ← moveTo msg (a.octet 0) 6 s.devAddr
  let configMethod ← wordTo msg (a.octet 6) s.configMethod
  let devType ← moveTo msg (a.octet 8) 8 s.devType
  deviceNameAttr msg { s with devAddr, configMethod, devType } a

def subElmtAttr (msg : Body) (s : SubElmt) (a : Attr) : Checked SubElmt :=
  match SubId.ofEid a.eid with
  | some .inviteFlag => do
    let inviteFlag ← octetTo msg (a.octet 0) s.inviteFlag
    return { s with inviteFlag }
  | some .cap => do
    let groupCap ← readOctet msg (a.octet 1)
    let deviceCap ← readOctet msg (a.octet 0)
    return { s with groupCap, deviceCap }
  | some .ownerIntent => do
    let intent ← octetTo msg (a.octet 0) s.intent
    return { s with intent }
  | some .channelList => channelListAttr msg s a
  | some .opChannel => do
    let opChannel ← octetTo msg (a.octet 4) s.opChannel
    return { s with opChannel }
  | some .listenChannel => do
    let listenChannel ← octetTo msg (a.octet 4) s.listenChannel
    return { s with listenChannel }
  | some .groupBssid => do
    let bssidAddr ← moveTo msg (a.octet 0) 6 s.bssidAddr
    return { s with bssidAddr }
  | some .interfaceAddr => do
    let interFAddr ← moveTo msg (a.octet 0) 6 s.interFAddr
    return { s with interFAddr }
  | some .deviceId => do
    let devAddr ← moveTo msg (a.octet 0) 6 s.devAddr
    return { s with devAddr }
  | some .groupId => groupIdAttr msg s a
  | some .deviceInfo => deviceInfoAttr msg s a
  | some .status => do
    let statusCode ← octetTo msg (a.octet 0) s.statusCode
    return { s with statusCode }
  | _ => return s

/-- The length of an element, two octets of its header left out. An element with the OUI one octet
late has a length of two octets. -/
def readIeLen (msg : Body) (off : Nat) : Checked Nat := do
  let len ← readOctet msg (off + 1)
  if ← readEqual msg wifidirectOui (off + 3) then
    let high ← readOctet msg (off + 2)
    return len.toNat + high.toNat * 256 + 1
  else return len.toNat

/-- The attributes of an element that is `len` octets long and has them from `pos` on. -/
def subElmtAttrs (msg : Body) (s : SubElmt) (pos len : Nat) : Checked SubElmt := do
  let accuP2pIeLen ← Checked.sub len 4
  let attriLen ← readAttriLen msg 8 pos
  let handler (s : SubElmt) (a : Attr) : Checked (SubElmt ⊕ Empty) := do
    return .inl (← subElmtAttr msg s a)
  fallThrough (attrLoop ⟨256, true⟩ msg handler accuP2pIeLen s pos 0 attriLen)

/-- An element in `P2pParseSubElmt`. -/
def subElmtElement (msg : Body) (bBeacon : Bool) (s : SubElmt) (off : Nat) : Checked SubElmt := do
  let len := (octetAt msg (off + 1)).toNat
  if ← readEqual msg wpsOui (off + 2) then p2pParseWpsIe msg bBeacon s (off + 2) (len + 2)
  else if ← readEqual msg wifidirectOui (off + 3) then
    subElmtAttrs msg s (off + 7) (len + (octetAt msg (off + 2)).toNat * 256)
  else if ← readEqual msg wifidirectOui (off + 2) then subElmtAttrs msg s (off + 6) len
  else return s

/-- The loop of `P2pParseSubElmt`: `accu` is the length up to the end of the element. An element
with a length of two octets is the last it looks at. -/
def subElmtLoop (msg : Body) (bBeacon : Bool) (s : SubElmt) (off accu : Nat) :
    Checked SubElmt :=
  if accu ≤ msg.length then do
    let s ← subElmtElement msg bBeacon s off
    if msg.length ≤ accu then return s
    else if ← readEqual msg wifidirectOui (off + 3) then return s
    else do
      let off := off + 2 + (octetAt msg (off + 1)).toNat
      let len ← readIeLen msg off
      subElmtLoop msg bBeacon s off (accu + 2 + len)
  else return s
termination_by msg.length + 1 - accu

/-- `P2pParseSubElmt` -/
def p2pParseSubElmt (msg : Body) (bBeacon : Bool) (s : SubElmt) : Checked SubElmt :=
  if msg.length = 0 then return s
  else do
    let len ← readIeLen msg 0
    subElmtLoop msg bBeacon s 0 (2 + len)

end Mt7601.P2p
