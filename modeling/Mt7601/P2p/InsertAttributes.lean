/-
# Building P2P attributes

`InsertP2PSubelmtTlv` and `InsertP2pChannelList` with `ChannelToClass` (`common/p2p_packet.c`), and
the element the attributes are put into. The list of the channels is written run by run of one
regulatory class: the class, the number of its channels, the channels; the number is filled in when
the run ends, at the place that was kept for it.
-/
import Mt7601.Lib.CountedList
import Mt7601.Lib.KeyRuns
import Mt7601.P2p.Attributes

namespace Mt7601.P2p

/-! ## 1. What is read of the adapter -/

/-- The part of `P2pCfg`, `CommonCfg` and the list of channels that attributes are made of.
`SecDevTypList[0]` is the number of the types behind it. -/
structure P2pSource where
  countryCode : Octets 2
  channelList : { l : List UInt8 // l.length ≤ maxNumOfChannels }
  configMethod : UInt16
  priDeviceType : Octets 8
  secDevTypList : List (Octets 8)
  deviceName : { l : List UInt8 // l.length ≤ 32 }

/-- `SUBID_P2P_STATUS` to `SUBID_P2P_INVITE_FLAG` -/
def SubId.eid : SubId → UInt8
  | .status => 0
  | .minorReason => 1
  | .cap => 2
  | .deviceId => 3
  | .ownerIntent => 4
  | .configTimeout => 5
  | .listenChannel => 6
  | .groupBssid => 7
  | .extListenTiming => 8
  | .interfaceAddr => 9
  | .manageability => 10
  | .channelList => 11
  | .noa => 12
  | .deviceInfo => 13
  | .groupInfo => 14
  | .groupId => 15
  | .interface => 16
  | .opChannel => 17
  | .inviteFlag => 18

theorem SubId.ofEid_eid (id : SubId) : SubId.ofEid id.eid = some id := by
  cases id <;> rfl

/-- `P2P_EXT_LISTEN_PERIOD` and `P2P_EXT_LISTEN_INTERVAL` -/
def p2pExtListenPeriod : Nat := 1000
def p2pExtListenInterval : Nat := 4000

/-- `ChannelToClass` for `COUNTRY_USA`, which is the country of all its calls. -/
def channelToClass (channel : UInt8) : UInt8 :=
  if channel ≤ 11 then 81
  else if channel ≤ 48 then 115
  else if channel ≤ 64 then 118
  else if channel ≤ 140 then 121
  else if channel = 165 ∨ channel = 169 then 125
  else 124

/-! ## 2. `InsertP2pChannelList` -/

/-- The local variables, with what was written to `pDest`. -/
structure ChannelWalk where
  dest : List UInt8
  pos : UInt8
  lastRegClass : UInt8
  lastLenPos : Nat
  lastNum : UInt8

/-- A turn of the loop up to the number of the last run. -/
def insertChannel (w : ChannelWalk) (channel : UInt8) : ChannelWalk :=
  let curRegClass := channelToClass channel
  let w : ChannelWalk :=
    if w.lastRegClass = 0xff then
      { w with lastRegClass := curRegClass, dest := Mem.write w.dest 0 [curRegClass] }
    else if curRegClass ≠ w.lastRegClass then
      { dest := Mem.write (Mem.write w.dest w.pos.toNat [curRegClass]) w.lastLenPos [w.lastNum]
        lastNum := 0
        lastRegClass := curRegClass
        lastLenPos := w.pos.toNat + 1
        pos := w.pos + 2 }
    else w
  { w with
    dest := Mem.write w.dest w.pos.toNat [channel]
    lastNum := w.lastNum + 1
    pos := w.pos + 1 }

/-- "Last item. Update Num." -/
def ChannelWalk.updateNum (w : ChannelWalk) : ChannelWalk :=
  { w with dest := Mem.write w.dest w.lastLenPos [w.lastNum] }

/-- The loop over the channels. -/
def channelLoop (w : ChannelWalk) : List UInt8 → ChannelWalk
  | [] => w
  | channel :: rest =>
    let w := insertChannel w channel
    channelLoop (if rest = [] then w.updateNum else w) rest

/-- `InsertP2pChannelList`: the `*ChannelListLen` octets at `pDest`, which were zero. -/
def insertP2pChannelList (channels : List UInt8) : List UInt8 :=
  let w := channelLoop
    { dest := [], pos := 2, lastRegClass := 0xff, lastLenPos := 1, lastNum := 0 } channels
  Mem.read w.dest 0 w.pos.toNat

/-! ## 3. `InsertP2PSubelmtTlv` -/

/-- `cpu2be16` of a number, in memory. -/
def be16Octets (n : Nat) : List UInt8 := [UInt8.ofNat (n / 256), UInt8.ofNat n]

/-- An attribute with a value: its identifier, and two octets for the length, the second zero. -/
def tlv (subId : SubId) (len : Nat) (value : List UInt8) : List UInt8 :=
  [subId.eid, UInt8.ofNat len, 0] ++ value

/-- `InsertP2PSubelmtTlv`: the octets it adds to the element. Some attributes are never made. -/
def insertP2pSubelmtTlv (ad : P2pSource) (subId : SubId) (pInBuffer : List UInt8) : List UInt8 :=
  match subId with
  | .inviteFlag | .status | .ownerIntent => tlv subId 1 [pInBuffer.getD 0 0]
  | .cap | .configTimeout => tlv subId 2 (Mem.read pInBuffer 0 2)
  | .deviceId | .groupBssid | .interfaceAddr => tlv subId 6 (Mem.read pInBuffer 0 6)
  | .channelList =>
    let list := insertP2pChannelList ad.channelList.1
    tlv subId (list.length + 3) (ad.countryCode.toList ++ [0x04] ++ list)
  | .opChannel | .listenChannel =>
    let channel := pInBuffer.getD 0 0
    tlv subId 5 (ad.countryCode.toList ++ [0x04, channelToClass channel, channel])
  | .extListenTiming =>
    tlv subId 4 (CountedList.le16 p2pExtListenPeriod ++ CountedList.le16 p2pExtListenInterval)
  | .deviceInfo =>
    tlv subId (17 + ad.deviceName.1.length + 4 + 8 * ad.secDevTypList.length)
      (Mem.read pInBuffer 0 6 ++ be16Octets ad.configMethod.toNat ++ ad.priDeviceType.toList ++
        [UInt8.ofNat ad.secDevTypList.length] ++
        (ad.secDevTypList.map List.Vector.toList).flatten ++
        be16Octets wscIdDeviceName ++ be16Octets ad.deviceName.1.length ++ ad.deviceName.1)
  | .groupId => subId.eid :: Mem.read pInBuffer 0 ((pInBuffer.getD 0 0).toNat + 2)
  | .minorReason | .manageability | .noa | .groupInfo | .interface => []

/-! ## 4. The element -/

/-- What is put in, with what is not taken from the adapter: the attributes that are made. -/
inductive Item
  | inviteFlag (flag : UInt8)
  | status (code : UInt8)
  | cap (deviceCap groupCap : UInt8)
  | deviceId (addr : Octets 6)
  | groupBssid (addr : Octets 6)
  | interfaceAddr (addr : Octets 6)
  | ownerIntent (intent : UInt8)
  | configTimeout (timeout : Octets 2)
  | channelList (opChannel : UInt8)
  | opChannel (channel : UInt8)
  | listenChannel (channel : UInt8)
  | extListenTiming
  | deviceInfo (addr : Octets 6)
  | groupId (addr : Octets 6) (ssid : { l : List UInt8 // 0 < l.length ∧ l.length ≤ 32 })

namespace Item

def subId : Item → SubId
  | inviteFlag _ => .inviteFlag
  | status _ => .status
  | cap _ _ => .cap
  | deviceId _ => .deviceId
  | groupBssid _ => .groupBssid
  | interfaceAddr _ => .interfaceAddr
  | ownerIntent _ => .ownerIntent
  | configTimeout _ => .configTimeout
  | channelList _ => .channelList
  | opChannel _ => .opChannel
  | listenChannel _ => .listenChannel
  | extListenTiming => .extListenTiming
  | deviceInfo _ => .deviceInfo
  | groupId _ _ => .groupId

/-- `pInBuffer` of the call. The callers put the length of a group identifier in front of it. -/
def buffer : Item → List UInt8
  | inviteFlag b | status b | ownerIntent b | channelList b | opChannel b | listenChannel b => [b]
  | cap deviceCap groupCap => [deviceCap, groupCap]
  | configTimeout timeout => timeout.toList
  | deviceId addr | groupBssid addr | interfaceAddr addr | deviceInfo addr => addr.toList
  | extListenTiming => []
  | groupId addr ssid => [UInt8.ofNat (6 + ssid.1.length), 0] ++ addr.toList ++ ssid.1

end Item

/-- The attributes, one behind the other. -/
def attributes (ad : P2pSource) (items : List Item) : List UInt8 :=
  items.flatMap fun item => insertP2pSubelmtTlv ad item.subId item.buffer

/-- `IE_VENDOR_SPECIFIC` -/
def ieVendorSpecific : UInt8 := 221

/-- The element: identifier, length, `P2POUIBYTE` and the attributes. -/
def p2pElement (ad : P2pSource) (items : List Item) : List UInt8 :=
  [ieVendorSpecific, UInt8.ofNat (4 + (attributes ad items).length)] ++ wifidirectOui ++
    attributes ad items

end Mt7601.P2p
