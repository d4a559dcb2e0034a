/-
# Building an EAPOL-Key frame

`ConstructEapolMsg`, `ConstructEapolKeyData` and `RTMPInsertRSNIE` of `common/cmm_wpa.c`. A
pointer that is `NULL` in a call whose message does not read it is passed as zero octets.
-/
import Mt7601.Wpa.Crypto

namespace Mt7601.Wpa

/-- `OUI_WPA2` -/
def ouiWpa2 : List UInt8 := [0x00, 0x0F, 0xAC]

/-- `IE_WPA`, `IE_RSN`, `WPA_KDE_TYPE` and `KDE_GTK` -/
abbrev ieWpa : UInt8 := 0xDD
abbrev ieRsn : UInt8 := 0x30
abbrev wpaKdeType : UInt8 := 0xDD
abbrev kdeGtk : UInt8 := 1

/-- `WPA_ConstructKdeHdr` -/
def wpaConstructKdeHdr (dataType : UInt8) (dataLen : Nat) : List UInt8 :=
  [wpaKdeType, UInt8.ofNat (4 + dataLen)] ++ ouiWpa2 ++ [dataType]

/-- `RTMPInsertRSNIE` without a PMKID list, which is how it is called here: what it appends. The
suite at the third octet tells a WPA2 element from a WPA one. -/
def rtmpInsertRsnie (rsnie : List UInt8) : List UInt8 :=
  if rsnie.length ≠ 0 then
    let ieNum := if Mem.read rsnie 2 3 = ouiWpa2 then ieRsn else ieWpa
    [ieNum, UInt8.ofNat rsnie.length] ++ rsnie
  else []

/-- The length of the group key a frame carries. -/
def gtkLenOf (groupKeyWepStatus : WepStatus) : Nat :=
  if groupKeyWepStatus = .encryption3Enabled then lenAesGtk else lenTkipGtk

/-- The messages whose key data carries the group key. -/
def gtkIncluded (bWPA2 : Bool) (msgType : MsgType) : Bool :=
  (msgType = .pairMsg3 ∧ bWPA2) ∨ msgType = .groupMsg1

/-- `Key_Data` before it is padded and enciphered. -/
def plainKeyData (bWPA2 : Bool) (groupKeyWepStatus : WepStatus) (msgType : MsgType)
    (defaultKeyIdx : UInt8) (gtk : Octets 32) (rsnie : List UInt8) : List UInt8 :=
  let gtkLen := gtkLenOf groupKeyWepStatus
  (if msgType = .pairMsg2 ∨ msgType = .pairMsg3 then rtmpInsertRsnie rsnie else []) ++
    (if gtkIncluded bWPA2 msgType then
      (if bWPA2 then
        wpaConstructKdeHdr kdeGtk (2 + gtkLen) ++ [defaultKeyIdx &&& 0x03, 0x00]
      else []) ++ gtk.toList.take gtkLen
    else [])

/-- The padding before the AES key wrap, to a multiple of eight octets. -/
def padKeyData (keyData : List UInt8) : List UInt8 :=
  let remainder := keyData.length % 8
  if remainder ≠ 0 then keyData ++ 0xDD :: List.replicate (8 - remainder - 1) 0 else keyData

/-- The enciphered key data (`eGTK`). A wrap without memory states the length zero; a stream
without its context leaves what the pool holds. -/
def cipherKeyData (C : Crypto) (env : Env) (keyDescVer : BitVec 3) (ptk : Octets lenPtk)
    (keyIv : Octets lenKeyDescIv) (keyData : List UInt8) : List UInt8 :=
  if keyDescVer = keyDescAes then
    if env.alloc .wrap then aesKeyWrap C (kekOf ptk) (padKeyData keyData) else []
  else if env.alloc .arc4 then tkipGtkKeyWrap (kekOf ptk) keyIv keyData
  else Mem.read env.pool 0 keyData.length

/-- `ConstructEapolKeyData` -/
def constructEapolKeyData (C : Crypto) (env : Env) (pEntry : MacTableEntry)
    (groupKeyWepStatus : WepStatus) (keyDescVer : BitVec 3) (msgType : MsgType)
    (defaultKeyIdx : UInt8) (gtk : Octets 32) (rsnie : List UInt8) (pMsg : EapolPacket) :
    EapolPacket :=
  if msgType = .pairMsg1 ∨ msgType = .pairMsg4 ∨ msgType = .groupMsg2 then pMsg
  else if !env.alloc .keyDataPool then pMsg
  else
    let bWPA2 := pEntry.authMode.bWPA2
    let plain := plainKeyData bWPA2 groupKeyWepStatus msgType defaultKeyIdx gtk rsnie
    let keyData :=
      if gtkIncluded bWPA2 msgType then
        cipherKeyData C env keyDescVer pEntry.ptk pMsg.keyIv plain
      else plain
    { pMsg with
      keyData := Mem.write pMsg.keyData 0 keyData
      keyDataLen := UInt16.ofNat keyData.length
      bodyLen := pMsg.bodyLen + UInt16.ofNat keyData.length }

/-- The descriptor version a frame is built with. -/
def keyDescVerOf (wepStatus groupKeyWepStatus : WepStatus) : BitVec 3 :=
  if wepStatus = .encryption3Enabled ∨ groupKeyWepStatus = .encryption3Enabled then keyDescAes
  else keyDescTkip

/-- The key information of a message. Fields the source leaves alone keep their value. -/
def keyInfoOf (bWPA2 : Bool) (keyDescVer : BitVec 3) (msgType : MsgType) (defaultKeyIdx : UInt8)
    (info : KeyInfo) : KeyInfo :=
  { info with
    keyDescVer
    keyType := if MsgType.groupMsg1 ≤ msgType then groupKeyType else pairwiseKeyType
    keyIndex :=
      if !bWPA2 ∧ MsgType.groupMsg1 ≤ msgType then defaultKeyIdx.toBitVec.setWidth 2
      else info.keyIndex
    install := if msgType = .pairMsg3 then true else info.install
    keyAck :=
      if msgType = .pairMsg1 ∨ msgType = .pairMsg3 ∨ msgType = .groupMsg1 then true
      else info.keyAck
    keyMic := if msgType ≠ .pairMsg1 then true else info.keyMic
    secure :=
      if (bWPA2 ∧ MsgType.pairMsg3 ≤ msgType) ∨ (!bWPA2 ∧ MsgType.groupMsg1 ≤ msgType) then true
      else info.secure
    ekdDl :=
      if bWPA2 ∧ (msgType = .pairMsg3 ∨ msgType = .groupMsg1) then true else info.ekdDl }

/-- `KeyLength[1]`: the pairwise key in WPA2 where it is stated, in WPA the key of the handshake. -/
def keyLengthOf (bWPA2 : Bool) (wepStatus groupKeyWepStatus : WepStatus) (msgType : MsgType)
    (keyLength : Octets 2) : Octets 2 :=
  let pairwise := if wepStatus = .encryption2Enabled then lenTkipTk else lenAesTk
  let group := if groupKeyWepStatus = .encryption2Enabled then lenTkipTk else lenAesTk
  if bWPA2 then
    if msgType = .pairMsg1 ∨ msgType = .pairMsg3 then keyLength.set 1 pairwise else keyLength
  else if MsgType.groupMsg1 ≤ msgType then keyLength.set 1 group
  else keyLength.set 1 pairwise

/-- `ConstructEapolMsg` up to the key data. -/
def constructEapolHeader (pEntry : MacTableEntry) (groupKeyWepStatus : WepStatus)
    (msgType : MsgType) (defaultKeyIdx : UInt8) (keyNonce : Octets 32) (txRsc : Octets 6)
    (pMsg : EapolPacket) : EapolPacket :=
  let bWPA2 := pEntry.authMode.bWPA2
  { pMsg with
    proVer := eapolVer
    proType := eapolKey
    bodyLen := UInt16.ofNat minLenOfEapolKeyMsg
    type := if bWPA2 then wpa2KeyDesc else wpa1KeyDesc
    keyInfo := keyInfoOf bWPA2 (keyDescVerOf pEntry.wepStatus groupKeyWepStatus) msgType
      defaultKeyIdx pMsg.keyInfo
    keyLength := keyLengthOf bWPA2 pEntry.wepStatus groupKeyWepStatus msgType pMsg.keyLength
    replayCounter := pEntry.rCounter
    keyNonce :=
      if msgType ≤ .pairMsg3 ∨ (!bWPA2 ∧ msgType = .groupMsg1) then keyNonce else pMsg.keyNonce
    keyIv :=
      if !bWPA2 ∧ msgType = .groupMsg1 then
        let iv : Octets lenKeyDescIv := keyNonce.slice 16 lenKeyDescIv
        iv.set 15 (iv.get 15 + 2)
      else pMsg.keyIv
    keyRsc := if gtkIncluded bWPA2 msgType then
        .ofList 8 (txRsc.toList ++ pMsg.keyRsc.toList.drop 6)
      else pMsg.keyRsc
    keyMic := .zero lenKeyDescMic }

/-- `ConstructEapolMsg` -/
def constructEapolMsg (C : Crypto) (env : Env) (pEntry : MacTableEntry)
    (groupKeyWepStatus : WepStatus) (msgType : MsgType) (defaultKeyIdx : UInt8)
    (keyNonce : Octets 32) (txRsc : Octets 6) (gtk : Octets 32) (rsnie : List UInt8)
    (pMsg : EapolPacket) : EapolPacket :=
  let keyDescVer := keyDescVerOf pEntry.wepStatus groupKeyWepStatus
  let msg := constructEapolKeyData C env pEntry groupKeyWepStatus keyDescVer msgType
    defaultKeyIdx gtk rsnie
    (constructEapolHeader pEntry groupKeyWepStatus msgType defaultKeyIdx keyNonce txRsc pMsg)
  if msgType ≠ .pairMsg1 then calculateMic C env keyDescVer pEntry.ptk msg else msg

end Mt7601.Wpa
