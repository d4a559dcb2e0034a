/-
# The messages M1 to M8 as they are received

`ProcessMessageM1` to `ProcessMessageM8` of `common/wsc_tlv.c`, with `WscParseEncrSettings` and
`WscProcessCredential` for what is enciphered in them, and `WscParseV2SubItem` of `common/wsc_v2.c`.

The handlers differ in what they do with an attribute: a message is a table of attributes and
actions (`MsgSpec`), the attributes it must have among them, and what is done once all have been
read. Every action is run checked: what it reads lies inside the message or stops it, and so does
what it writes and its field. A length of which twelve octets are taken off must have them.
-/
import Mt7601.Wsc.RegData
import Mt7601.Wsc.Defs

namespace Mt7601.Wsc

open Checked (access sub)
open Tlv (Attr)

/-! ## 1. Attributes -/

def wscIdAssocState : Nat := 0x1002
def wscIdAuthType : Nat := 0x1003
def wscIdAuthTypeFlags : Nat := 0x1004
def wscIdAuthenticator : Nat := 0x1005
def wscIdConfigMethods : Nat := 0x1008
def wscIdConfigError : Nat := 0x1009
def wscIdConnTypeFlags : Nat := 0x100D
def wscIdCredential : Nat := 0x100E
def wscIdEncrType : Nat := 0x100F
def wscIdEncrTypeFlags : Nat := 0x1010
def wscIdDeviceName : Nat := 0x1011
def wscIdDevicePwdId : Nat := 0x1012
def wscIdEHash1 : Nat := 0x1014
def wscIdEHash2 : Nat := 0x1015
def wscIdESNonce1 : Nat := 0x1016
def wscIdESNonce2 : Nat := 0x1017
def wscIdEncrSettings : Nat := 0x1018
def wscIdEnrolleeNonce : Nat := 0x101A
def wscIdKeyWrapAuth : Nat := 0x101E
def wscIdMacAddr : Nat := 0x1020
def wscIdManufacturer : Nat := 0x1021
def wscIdMsgType : Nat := 0x1022
def wscIdModelName : Nat := 0x1023
def wscIdModelNumber : Nat := 0x1024
def wscIdNwIndex : Nat := 0x1026
def wscIdNwKey : Nat := 0x1027
def wscIdNwKeyIndex : Nat := 0x1028
def wscIdOsVersion : Nat := 0x102D
def wscIdPublicKey : Nat := 0x1032
def wscIdRegistrarNonce : Nat := 0x1039
def wscIdRfBand : Nat := 0x103C
def wscIdRHash1 : Nat := 0x103D
def wscIdRHash2 : Nat := 0x103E
def wscIdRSNonce1 : Nat := 0x103F
def wscIdRSNonce2 : Nat := 0x1040
def wscIdSerialNum : Nat := 0x1042
def wscIdScState : Nat := 0x1044
def wscIdSsid : Nat := 0x1045
def wscIdUuidE : Nat := 0x1047
def wscIdUuidR : Nat := 0x1048
def wscIdVendorExt : Nat := 0x1049
def wscIdVersion : Nat := 0x104A
def wscIdPrimDevType : Nat := 0x1054

/-- `WSC_ERROR_SETUP_LOCKED` -/
def wscErrorSetupLocked : Nat := 15
/-- `WSC_ERROR_CAN_NOT_ALLOCMEM` -/
def wscErrorCanNotAllocMem : Nat := 252
/-- `WSC_ERROR_WANTING_FIELD` -/
def wscErrorWantingField : Nat := 253
/-- `WSC_ENCRTYPE_WEP` -/
def wscEncrTypeWep : Nat := 2
/-- `WFA_EXT_ID_VERSION2` -/
def wfaExtIdVersion2 : UInt8 := 0

section

variable (data : List UInt8) (a : Attr)

/-- `NdisMoveMemory(field, pData, WscLen)` -/
def copyInto (f : Field) (r : Regs) : Checked Regs := do
  access data.length a.off a.len
  access f.size 0 a.len
  pure (r.put f (a.value data))

/-- `n` octets of the value, whatever its length, -/
def octets (n : Nat) : List UInt8 := (data.drop a.off).take n

/-- and as they are read. -/
def octetsOf (n : Nat) : Checked (List UInt8) := do
  access data.length a.off n
  pure (octets data a n)

end

/-! ## 2. `WscParseEncrSettings` -/

/-- The octets of an SSID, which a zero ends. -/
def ssidOf (l : List UInt8) (n : Nat) : List UInt8 := (l.take n).takeWhile (· ≠ 0)

/-- Their number, read one after the other. -/
def ssidIdx : List UInt8 → Nat → Checked Nat
  | _, 0 => .ok 0
  | b :: data, n + 1 => if b = 0 then .ok 0 else do
    let idx ← ssidIdx data n
    pure (idx + 1)
  | [], _ + 1 => .error .outside

/-- What the settings are stored in: the registers and `WscM7Profile`. -/
structure Settings where
  regs : Regs
  m7 : WscProfile

/-- The fields of the secret nonces. -/
def settingField (type : Nat) : Option Field :=
  if type = wscIdESNonce1 then some .es1
  else if type = wscIdESNonce2 then some .es2
  else if type = wscIdRSNonce1 then some .rs1
  else if type = wscIdRSNonce2 then some .rs2
  else none

section

variable (data : List UInt8) (s : Settings) (a : Attr)

/-- What the switch of the loop reads, and where it writes. -/
def settingReads : Checked Unit :=
  match settingField a.type with
  | some f => do
    access data.length a.off a.len
    access f.size 0 a.len
  | none =>
    if a.type = wscIdKeyWrapAuth then do
      access data.length a.off a.len
      access 8 0 a.len
    else if a.type = wscIdSsid then do
      let idx ← ssidIdx (data.drop a.off) a.len
      access 32 0 idx
    else if a.type = wscIdMacAddr then access data.length a.off 6
    else if a.type = wscIdAuthType ∨ a.type = wscIdEncrType then access data.length a.off 2
    else if a.type = wscIdNwKeyIndex then access data.length a.off 1
    else if a.type = wscIdNwKey ∧ a.len ≠ 0 then do
      access data.length a.off a.len
      access 64 0 a.len
    else .ok ()

/-- What it writes to the registers, -/
def settingRegs (r : Regs) : Regs :=
  match settingField a.type with
  | some f => r.put f (a.value data)
  | none => r

/-- and to the first credential of `WscM7Profile`. -/
def settingProfile (p : WscProfile) : WscProfile :=
  match settingField a.type with
  | some _ => p
  | none =>
    if a.type = wscIdSsid then
      let ssid := ssidOf (data.drop a.off) a.len
      let p := p.set 0 fun c =>
        { c with
          ssidLength := ssid.length
          ssid := Octets.ofList 32 (Mem.write c.ssid.toList 0 ssid) }
      { p with profileCnt := 1 }
    else if a.type = wscIdMacAddr then
      p.set 0 fun c => { c with macAddr := Octets.ofList 6 (Mem.read data a.off 6) }
    else if a.type = wscIdAuthType then
      p.set 0 fun c => { c with authType := Tlv.word data a.off }
    else if a.type = wscIdEncrType then
      p.set 0 fun c => { c with encrType := Tlv.word data a.off }
    else if a.type = wscIdNwKeyIndex then
      p.set 0 fun c => { c with keyIndex := data.getD a.off 0 }
    else if a.type = wscIdNwKey ∧ a.len ≠ 0 then
      p.set 0 fun c =>
        { c with
          keyLength := a.len
          key := Octets.ofList 64 (Mem.write c.key.toList 0 (a.value data)) }
    else p

def settingStores : Settings where
  regs := settingRegs data a s.regs
  m7 := settingProfile data a s.m7

/-- The switch. -/
def settingAttr : Checked (Settings ⊕ Empty) :=
  settingReads data a >>= fun _ => .ok (.inl (settingStores data s a))

end

/-- `WscParseEncrSettings`. The authenticator that is computed over all but the last twelve octets
is compared with the one that was read, and a mismatch goes to the log. -/
def wscParseEncrSettings (plain : List UInt8) (s : Settings) : Checked Settings := do
  match ← Tlv.loop (·.len) (settingAttr plain) plain s 0 with
  | .inl s => do
    let _hmacLen ← sub plain.length 12
    pure s

/-! ## 3. `WscProcessCredential` -/

/-- A printable octet. -/
def printAble (b : UInt8) : Bool := 0x20 ≤ b ∧ b ≤ 0x7E

/-- `RTMPCheckStrPrintAble` -/
def rtmpCheckStrPrintAble : List UInt8 → Nat → Checked Bool
  | _, 0 => .ok true
  | b :: data, n + 1 => if printAble b then rtmpCheckStrPrintAble data n else .ok false
  | [], _ + 1 => .error .outside

/-- What the credentials are stored in, with `Cnt` and `CurrentIdx`. -/
structure Crediting where
  prof : WscProfile
  cnt : Nat
  currentIdx : Nat

/-- A write to the current credential. -/
def Crediting.set (s : Crediting) (f : WscCredential → WscCredential) : Crediting :=
  { s with prof := s.prof.set s.currentIdx f }

section

variable (bCheckMultiByte : Bool) (data : List UInt8) (s : Crediting) (a : Attr)

/-- A name or a key of so many octets is taken: the length is an octet where it is checked. -/
def takes (n : Nat) : Bool :=
  ((data.drop a.off).take (n % 256)).all printAble || !bCheckMultiByte

/-- What the switch of the loop reads, and where it writes. -/
def credentialReads : Checked Unit :=
  if a.type = wscIdSsid then do
    let idx ← ssidIdx (data.drop a.off) a.len
    access 8 s.currentIdx 1
    let printable ← rtmpCheckStrPrintAble (data.drop a.off) (idx % 256)
    if printable ∨ bCheckMultiByte = false then access 32 0 idx else .ok ()
  else if a.type = wscIdAuthType ∨ a.type = wscIdEncrType then do
    access data.length a.off 2
    access 8 s.currentIdx 1
  else if a.type = wscIdNwKeyIndex then do
    access data.length a.off 1
    access 8 s.currentIdx 1
  else if a.type = wscIdNwKey ∧ a.len ≠ 0 then do
    let printable ← rtmpCheckStrPrintAble (data.drop a.off) (a.len % 256)
    if printable ∨ bCheckMultiByte = false then do
      access 8 s.currentIdx 1
      access data.length a.off a.len
      access 64 0 a.len
    else .ok ()
  else if a.type = wscIdMacAddr then do
    access data.length a.off 6
    access 8 s.currentIdx 1
  else .ok ()

/-- What it writes. A name or a key that is not taken ends the loop. -/
def credentialStores : Crediting ⊕ WscProfile :=
  if a.type = wscIdNwIndex then .inl { s with currentIdx := s.cnt, cnt := s.cnt + 1 }
  else if a.type = wscIdSsid then
    let ssid := ssidOf (data.drop a.off) a.len
    let s := s.set fun c => { c with ssidLength := ssid.length }
    if takes bCheckMultiByte data a ssid.length then
      .inl (s.set fun c => { c with ssid := Octets.ofList 32 (Mem.write c.ssid.toList 0 ssid) })
    else .inr s.prof
  else if a.type = wscIdAuthType then
    .inl (s.set fun c => { c with authType := Tlv.word data a.off })
  else if a.type = wscIdEncrType then
    .inl (s.set fun c => { c with encrType := Tlv.word data a.off })
  else if a.type = wscIdNwKeyIndex then
    .inl (s.set fun c => { c with keyIndex := data.getD a.off 0 })
  else if a.type = wscIdNwKey ∧ a.len ≠ 0 then
    if takes bCheckMultiByte data a a.len then
      .inl (s.set fun c =>
        { c with
          keyLength := a.len
          key := Octets.ofList 64 (Mem.write c.key.toList 0 (a.value data)) })
    else .inr s.prof
  else if a.type = wscIdMacAddr then
    .inl (s.set fun c => { c with macAddr := Octets.ofList 6 (Mem.read data a.off 6) })
  else .inl s

/-- The switch. -/
def credentialAttr : Checked (Crediting ⊕ WscProfile) :=
  credentialReads bCheckMultiByte data s a >>= fun _ =>
    .ok (credentialStores bCheckMultiByte data s a)

end

/-- A Credential is gone into, any other attribute is passed. -/
def credentialSkip (a : Attr) : Nat := if a.type = wscIdCredential then 0 else a.len

/-- The loop over the credentials, which ends at the first with WEP: they are cleared then. -/
def rejectsWep (prof : WscProfile) : Nat → Nat → Checked Bool
  | 0, _ => .ok false
  | n + 1, idx =>
    if h : idx < 8 then
      if (prof.profile ⟨idx, h⟩).encrType = wscEncrTypeWep then .ok true
      else rejectsWep prof n (idx + 1)
    else .error .outside

/-- `WscProcessCredential`: `WscProfile`, and what is returned. -/
def wscProcessCredential (bCheckMultiByte bEnableWpsV2 : Bool) (plain : List UInt8) :
    Checked (WscProfile × Bool) := do
  match ← Tlv.loop credentialSkip (credentialAttr bCheckMultiByte plain) plain
      { prof := WscProfile.zero, cnt := 0, currentIdx := 0 } 0 with
  | .inr prof => pure (prof, false)
  | .inl s =>
    let prof := { s.prof with profileCnt := s.cnt }
    if bEnableWpsV2 then do
      let rejects ← rejectsWep prof s.cnt 0
      if rejects then pure (WscProfile.zero, false) else pure (prof, true)
    else pure (prof, true)

/-! ## 4. What is done with an attribute -/

/-- `WscParseV2SubItem`: the octets of the first item with this number. -/
def wscParseV2SubItem (data : List UInt8) (subId : UInt8) (base dataLen length : Nat) :
    Checked (Option (List UInt8)) :=
  if base + 3 + length + 2 ≤ data.length then
    let len := (data.getD (base + 3 + length + 1) 0).toNat
    if length + 2 + len + 3 ≤ dataLen then
      if data.getD (base + 3 + length) 0 = subId then
        access data.length (base + 3 + length + 2) len >>= fun _ =>
          .ok (some ((data.drop (base + 3 + length + 2)).take len))
      else wscParseV2SubItem data subId base dataLen (length + 2 + len)
    else .ok none
  else .error .outside
termination_by data.length - length

/-- The actions of the handlers. -/
inductive Act
  /-- nothing is read of it -/
  | tick
  /-- the first octet is compared, for the log -/
  | peek
  /-- a number of so many octets is stored -/
  | store (f : Field) (n : Nat)
  /-- two octets are swapped and stored -/
  | storeBe (f : Field)
  /-- its value is copied -/
  | copy (fs : List Field)
  /-- its value is compared with a nonce, for the log -/
  | compare (f : Field)
  | devicePwdId
  | scState
  | version2
  /-- its value is copied into `Hmac` -/
  | authenticator
  /-- Encrypted Settings of M4, M5 and M6 -/
  | settings
  /-- Encrypted Settings of M7 -/
  | m7Settings
  /-- Encrypted Settings of M8 -/
  | credentials

/-- A message as it is received: the attributes that it must have, what is done with an attribute,
and with the registers after each. -/
structure MsgSpec where
  required : List Nat
  acts : List (Nat × Act)
  after : Regs → Regs := id

/-- A message that is being read: the block, `Hmac`, and the attributes of `FieldCheck`, which each
that comes switches over. -/
structure Reading where
  blk : WscBlock
  hmac : List UInt8
  check : Nat → Bool

namespace Reading

variable (C : WscCrypto) (msg : List UInt8) (s : Reading) (a : Attr)

def setRegs (regs : Regs) : Reading := { s with blk := { s.blk with regs := regs } }

/-- Encrypted Settings, deciphered: `ApEncrSettings`, and its octets up to `EncrLen`. -/
def decipher : Octets 1024 × List UInt8 :=
  let v := a.value msg
  let deciphered :=
    aesCbcDecrypt C (s.blk.regs .keyWrapKey) (v.take 16) (v.drop 16) (s.blk.regs .apEncrSettings)
  (deciphered.1, deciphered.1.toList.take deciphered.2.toNat)

/-- The block with `ApEncrSettings` deciphered. -/
def deciphered : Regs := Function.update s.blk.regs .apEncrSettings (s.decipher C msg a).1

/-- The copies of one attribute. -/
def copies : List Field → Regs → Checked Regs
  | [], regs => pure regs
  | f :: fs, regs => do
    let regs ← copyInto msg a f regs
    copies fs regs

/-- Settings that fit into the buffer are deciphered and parsed. The flag says that the attribute
counts for `FieldCheck`. -/
def readSettings (capacity : Nat) (m7 : WscProfile) : Checked (Reading × Bool) :=
  if a.len ≤ 16 ∨ capacity < a.len then pure (s, false)
  else do
    access msg.length a.off a.len
    let settings ←
      wscParseEncrSettings (s.decipher C msg a).2 { regs := s.deciphered C msg a, m7 := m7 }
    pure
      ({ s with blk := { s.blk with regs := settings.regs, wscM7Profile := settings.m7 } }, true)

/-- The credentials of M8; without any that can be stored the message is given up. -/
def readCredentials : Checked (Reading × Bool ⊕ WscBlock) :=
  if a.len ≤ 16 ∨ 1024 < a.len then pure (.inl (s, false))
  else do
    access msg.length a.off a.len
    let credited ←
      wscProcessCredential s.blk.bCheckMultiByte s.blk.bEnableWpsV2 (s.decipher C msg a).2
    let blk := { s.blk with regs := s.deciphered C msg a, wscProfile := credited.1 }
    if credited.2 then pure (.inl ({ s with blk := blk }, true)) else pure (.inr blk)

/-- The switch of a handler. -/
def perform : Act → Checked (Reading × Bool ⊕ WscBlock)
  | .tick => pure (.inl (s, true))
  | .peek => do
    let _octet ← octetsOf msg a 1
    pure (.inl (s, true))
  | .store f n => do
    let v ← octetsOf msg a n
    pure (.inl (s.setRegs (s.blk.regs.put f (v.take f.size)), true))
  | .storeBe f => do
    let v ← octetsOf msg a 2
    pure (.inl (s.setRegs (s.blk.regs.put f v.reverse), true))
  | .copy fs => do
    let regs ← copies msg a fs s.blk.regs
    pure (.inl (s.setRegs regs, true))
  | .compare f => do
    let _same ← compareMemory (s.blk.regs f).toList (msg.drop a.off) a.len
    pure (.inl (s, true))
  | .devicePwdId => do
    let v ← octetsOf msg a 2
    let regs :=
      if v = [0, 0] then s.blk.regs.put .selfDevPwdId [0, 0]
      else if v = [4, 0] then s.blk.regs.put .selfDevPwdId [0, 4]
      else s.blk.regs
    pure (.inl (s.setRegs regs, true))
  | .scState => do
    let v ← octetsOf msg a 2
    let s := s.setRegs (s.blk.regs.put .peerScState (v.take 1))
    let bConfiguredAP :=
      if s.blk.staMode then decide (v.take 1 = [2]) else s.blk.bConfiguredAP
    pure (.inl ({ s with blk := { s.blk with bConfiguredAP := bConfiguredAP } }, true))
  | .version2 =>
    if s.blk.bEnableWpsV2 then do
      match ← wscParseV2SubItem msg wfaExtIdVersion2 a.off a.len 0 with
      | none => pure (.inl (s, true))
      | some v => do
        access Field.peerVersion2.size 0 v.length
        pure (.inl (s.setRegs (s.blk.regs.put .peerVersion2 v), true))
    else pure (.inl (s, true))
  | .authenticator => do
    access msg.length a.off a.len
    access 8 0 a.len
    pure (.inl ({ s with hmac := Mem.write s.hmac 0 (a.value msg) }, true))
  | .settings => do
    let read ← s.readSettings C msg a 512 s.blk.wscM7Profile
    pure (.inl read)
  | .m7Settings => do
    let read ← s.readSettings C msg a 1024
      (if s.blk.staMode then WscProfile.zero else s.blk.wscM7Profile)
    pure (.inl read)
  | .credentials => s.readCredentials C msg a

end Reading

/-! ## 5. Reading a message -/

/-- What is done after an attribute: it is ticked off if it counts. -/
def Reading.tick (spec : MsgSpec) (a : Attr) (s : Reading) (counts : Bool) : Reading :=
  let check :=
    if counts ∧ a.type ∈ spec.required then Function.update s.check a.type (!s.check a.type)
    else s.check
  { s.setRegs (spec.after s.blk.regs) with check := check }

/-- One round of the loop of a handler. -/
def readAttr (C : WscCrypto) (spec : MsgSpec) (msg : List UInt8) (s : Reading) (a : Attr) :
    Checked (Reading ⊕ WscBlock) :=
  match spec.acts.lookup a.type with
  | none => .ok (.inl (s.tick spec a false))
  | some act =>
    s.perform C msg a act >>= fun performed =>
      match performed with
      | .inl (s, counts) => .ok (.inl (s.tick spec a counts))
      | .inr blk => .ok (.inr blk)

/-- The block as the loop of a handler finds it. -/
def Reading.start (spec : MsgSpec) (b : WscBlock) : Reading where
  blk := b
  hmac := List.replicate 8 0xff
  check type := decide (type ∈ spec.required)

/-- The loop of a handler, over what it has copied to `LastRx`. -/
def readMessage (C : WscCrypto) (spec : MsgSpec) (b : WscBlock) : Checked (Reading ⊕ WscBlock) :=
  Tlv.loop (·.len) (readAttr C spec b.lastRx) b.lastRx (Reading.start spec b) 0

section

variable (C : WscCrypto) (spec : MsgSpec) (b : WscBlock)

/-- An attribute is missing, or has come twice. -/
def Reading.wants (s : Reading) : Bool := spec.required.any s.check

/-- The authenticator over the last message sent and the one received, without its last twelve
octets. -/
def authenticator (b : WscBlock) (n : Nat) : List UInt8 :=
  (C.hmacSha256 (b.regs .authKey).toList (b.lastTx ++ b.lastRx.take n)).toList.take 8

/-- A handler whose message has been given up returns `WSC_ERROR_SETUP_LOCKED`. -/
def readThen (finish : Reading → Checked (WscBlock × Nat)) : Checked (WscBlock × Nat) :=
  readMessage C spec b >>= fun read =>
    match read with
    | .inl s => finish s
    | .inr blk => .ok (blk, wscErrorSetupLocked)

/-- What a handler returns in the end. -/
def Reading.verdict (s : Reading) (n : Nat) : Nat :=
  if s.wants spec then wscErrorWantingField
  else if authenticator C s.blk n = s.hmac then wscErrorNoError
  else wscErrorHmacFail

/-- The hash that a commitment is made with. -/
def commitment (r : Regs) (nonce psk : Field) : Octets 32 :=
  C.hmacSha256 (r .authKey).toList
    ((r nonce).toList ++ (r psk).toList ++ (r .pke).toList ++ (r .pkr).toList)

end

/-! ## 6. The handlers -/

def m1Required : List Nat :=
  [wscIdVersion, wscIdMsgType, wscIdUuidE, wscIdMacAddr, wscIdEnrolleeNonce, wscIdPublicKey,
    wscIdAuthTypeFlags, wscIdEncrTypeFlags, wscIdConnTypeFlags, wscIdConfigMethods, wscIdScState,
    wscIdManufacturer, wscIdModelName, wscIdModelNumber, wscIdSerialNum, wscIdPrimDevType,
    wscIdDeviceName, wscIdRfBand, wscIdAssocState, wscIdConfigError, wscIdDevicePwdId,
    wscIdOsVersion]

def m1Spec : MsgSpec where
  required := m1Required
  acts :=
    [(wscIdVersion, .peek), (wscIdMsgType, .peek), (wscIdUuidE, .copy [.peerUuid]),
      (wscIdMacAddr, .copy [.peerMacAddr, .wscPeerMAC]),
      (wscIdEnrolleeNonce, .copy [.enrolleeNonce]), (wscIdPublicKey, .copy [.pke]),
      (wscIdAuthTypeFlags, .store .peerAuthTypeFlags 2),
      (wscIdEncrTypeFlags, .store .peerEncrTypeFlags 2),
      (wscIdConnTypeFlags, .store .peerConnTypeFlags 1),
      (wscIdConfigMethods, .store .peerConfigMethods 2), (wscIdScState, .scState),
      (wscIdManufacturer, .copy [.peerManufacturer, .wscPeerManufacturer]),
      (wscIdModelName, .copy [.peerModelName, .wscPeerModelName]),
      (wscIdModelNumber, .copy [.peerModelNumber, .wscPeerModelNumber]),
      (wscIdSerialNum, .copy [.peerSerialNumber, .wscPeerSerialNumber]),
      (wscIdPrimDevType, .copy [.peerPriDeviceType]),
      (wscIdDeviceName, .copy [.peerDeviceName, .wscPeerDeviceName]),
      (wscIdRfBand, .store .peerRfBand 1), (wscIdAssocState, .store .peerAssocState 2),
      (wscIdConfigError, .store .peerConfigError 2), (wscIdDevicePwdId, .devicePwdId),
      (wscIdOsVersion, .store .peerOsVersion 8), (wscIdVendorExt, .version2)]

/-- `WscPeerInfo`, cleared. -/
def zeroPeerInfo (r : Regs) : Regs :=
  [Field.wscPeerDeviceName, .wscPeerManufacturer, .wscPeerModelName, .wscPeerModelNumber,
    .wscPeerSerialNumber, .wscPeerMAC].foldl Regs.zero r

/-- The attributes that M2 and M2D have besides the nonces and the key; the names go to these
fields. -/
def m2Common (names : Field → Field → List Field) : List (Nat × Act) :=
  [(wscIdVersion, .peek), (wscIdMsgType, .peek), (wscIdRegistrarNonce, .copy [.registrarNonce]),
    (wscIdUuidR, .copy [.peerUuid]), (wscIdAuthTypeFlags, .store .peerAuthTypeFlags 2),
    (wscIdEncrTypeFlags, .store .peerEncrTypeFlags 2),
    (wscIdConnTypeFlags, .store .peerConnTypeFlags 1),
    (wscIdManufacturer, .copy (names .peerManufacturer .wscPeerManufacturer)),
    (wscIdModelName, .copy (names .peerModelName .wscPeerModelName)),
    (wscIdModelNumber, .copy (names .peerModelNumber .wscPeerModelNumber)),
    (wscIdSerialNum, .copy (names .peerSerialNumber .wscPeerSerialNumber)),
    (wscIdPrimDevType, .copy [.peerPriDeviceType]),
    (wscIdDeviceName, .copy (names .peerDeviceName .wscPeerDeviceName)),
    (wscIdRfBand, .store .peerRfBand 1), (wscIdAssocState, .store .peerAssocState 2),
    (wscIdConfigError, .store .peerConfigError 2), (wscIdOsVersion, .store .peerOsVersion 8)]

def m2Spec : MsgSpec where
  required :=
    [wscIdVersion, wscIdMsgType, wscIdEnrolleeNonce, wscIdRegistrarNonce, wscIdUuidR,
      wscIdPublicKey, wscIdAuthTypeFlags, wscIdEncrTypeFlags, wscIdConnTypeFlags,
      wscIdConfigMethods, wscIdManufacturer, wscIdModelName, wscIdModelNumber, wscIdSerialNum,
      wscIdPrimDevType, wscIdDeviceName, wscIdRfBand, wscIdAssocState, wscIdConfigError,
      wscIdDevicePwdId, wscIdOsVersion, wscIdAuthenticator]
  acts :=
    m2Common (fun f g => [f, g]) ++
      [(wscIdEnrolleeNonce, .compare .selfNonce), (wscIdPublicKey, .copy [.pkr]),
        (wscIdConfigMethods, .store .peerConfigMethods 2), (wscIdDevicePwdId, .tick),
        (wscIdAuthenticator, .authenticator), (wscIdVendorExt, .version2)]
  after r := r.put .wscPeerMAC (r .peerMacAddr).toList

def m2DSpec : MsgSpec where
  required := []
  acts :=
    m2Common (fun f _ => [f]) ++
      [(wscIdEnrolleeNonce, .compare .enrolleeNonce),
        (wscIdConfigMethods, .storeBe .peerConfigMethods)]

def m3Spec : MsgSpec where
  required :=
    [wscIdVersion, wscIdMsgType, wscIdRegistrarNonce, wscIdEHash1, wscIdEHash2, wscIdAuthenticator]
  acts :=
    [(wscIdVersion, .peek), (wscIdMsgType, .peek), (wscIdRegistrarNonce, .compare .registrarNonce),
      (wscIdEHash1, .copy [.eHash1]), (wscIdEHash2, .copy [.eHash2]),
      (wscIdAuthenticator, .authenticator)]

def m4Spec : MsgSpec where
  required :=
    [wscIdVersion, wscIdMsgType, wscIdEnrolleeNonce, wscIdRHash1, wscIdRHash2, wscIdEncrSettings,
      wscIdAuthenticator]
  acts :=
    [(wscIdVersion, .peek), (wscIdMsgType, .peek), (wscIdEnrolleeNonce, .compare .enrolleeNonce),
      (wscIdRHash1, .copy [.rHash1]), (wscIdRHash2, .copy [.rHash2]),
      (wscIdEncrSettings, .settings), (wscIdAuthenticator, .authenticator)]

def m5Spec : MsgSpec where
  required :=
    [wscIdVersion, wscIdMsgType, wscIdRegistrarNonce, wscIdEncrSettings, wscIdAuthenticator]
  acts :=
    [(wscIdVersion, .peek), (wscIdMsgType, .peek), (wscIdRegistrarNonce, .compare .registrarNonce),
      (wscIdEncrSettings, .settings), (wscIdAuthenticator, .authenticator)]

def m6Spec : MsgSpec where
  required :=
    [wscIdVersion, wscIdMsgType, wscIdEnrolleeNonce, wscIdEncrSettings, wscIdAuthenticator]
  acts :=
    [(wscIdVersion, .peek), (wscIdMsgType, .peek), (wscIdEnrolleeNonce, .compare .enrolleeNonce),
      (wscIdEncrSettings, .settings), (wscIdAuthenticator, .authenticator)]

def m7Spec : MsgSpec where
  required := []
  acts :=
    [(wscIdVersion, .peek), (wscIdMsgType, .peek), (wscIdRegistrarNonce, .compare .registrarNonce),
      (wscIdEncrSettings, .m7Settings), (wscIdAuthenticator, .authenticator)]

def m8Spec : MsgSpec where
  required := []
  acts :=
    [(wscIdVersion, .peek), (wscIdMsgType, .peek), (wscIdEnrolleeNonce, .compare .enrolleeNonce),
      (wscIdEncrSettings, .credentials), (wscIdAuthenticator, .authenticator)]

section

variable (C : WscCrypto) (b : WscBlock) (msg : List UInt8)

/-- `LastRx` -/
def WscBlock.receive : WscBlock := { b with lastRx := msg }

/-- The block as `ProcessMessageM1` reads the message, with the random octets that are drawn. -/
def WscBlock.receiveM1 (random : Octets 192) : WscBlock :=
  let regs := (b.regs.put .peerVersion2 [0]).put .enrolleeRandom random.toList
  let regs := regs.put .pkr (C.dhPublicKey random (regs .pkr)).toList
  { b with regs := zeroPeerInfo regs, lastRx := msg }

def processMessageM1 (random : Octets 192) : Checked (WscBlock × Nat) :=
  readThen C m1Spec (b.receiveM1 C msg random) fun s =>
    .ok (s.blk, if s.wants m1Spec then wscErrorWantingField else wscErrorNoError)

/-- `AuthKey`, `KeyWrapKey` and `Emsk` out of the secret key. `WscDeriveKey` is three rounds of the
hash over a count, the personal string and the number of bits. -/
def wscDeriveKey (kdk : Octets 32) : List UInt8 :=
  let personal := "Wi-Fi Easy and Secure Key Derivation".toUTF8.toList
  let round (i : UInt8) :=
    (C.hmacSha256 kdk.toList ([0, 0, 0, i] ++ personal ++ [0, 0, 2, 0x80])).toList
  (round 1 ++ round 2 ++ round 3).take 80

/-- The keys of a session, by its nonces and the address of the enrollee. -/
def sessionKeys (r : Regs) (enrolleeNonce macAddr : List UInt8) : Regs :=
  let dhKey := C.sha256 (r .secretKey).toList
  let kdk := C.hmacSha256 dhKey.toList (enrolleeNonce ++ macAddr ++ (r .registrarNonce).toList)
  let kdfKey := wscDeriveKey C kdk
  ((r.put .authKey (kdfKey.take 32)).put .keyWrapKey ((kdfKey.drop 32).take 16)).put .emsk
    ((kdfKey.drop 48).take 32)

/-- The keys that the enrollee computes when M2 has been read. -/
def m2Keys (r : Regs) : Regs :=
  let r := r.put .secretKey (C.dhSecretKey (r .pkr) (r .enrolleeRandom) (r .secretKey)).toList
  sessionKeys C r (r .selfNonce).toList (r .selfMacAddr).toList

/-- The block as `ProcessMessageM2` reads the message. -/
def WscBlock.receiveM2 : WscBlock :=
  { b with regs := zeroPeerInfo (b.regs.put .peerVersion2 [0]), lastRx := msg }

def processMessageM2 : Checked (WscBlock × Nat) :=
  readThen C m2Spec (b.receiveM2 msg) fun s =>
    let s := s.setRegs (m2Keys C s.blk.regs)
    sub s.blk.lastRx.length 12 >>= fun n => .ok (s.blk, s.verdict C m2Spec n)

def processMessageM2D : Checked (WscBlock × Nat) :=
  readThen C m2DSpec (b.receive msg) fun s => .ok (s.blk, wscErrorNoError)

def processMessageM3 : Checked (WscBlock × Nat) :=
  readThen C m3Spec (b.receive msg) fun s =>
    sub s.blk.lastRx.length 12 >>= fun n => .ok (s.blk, s.verdict C m3Spec n)

/-- `ProcessMessageM4`, with memory for what it deciphers or without. -/
def processMessageM4 (memory : Bool) : Checked (WscBlock × Nat) :=
  if memory then
    readThen C m4Spec (b.receive msg) fun s =>
      if (s.blk.regs .rHash1).toList = (commitment C s.blk.regs .rs1 .psk1).toList then
        sub s.blk.lastRx.length 12 >>= fun n => .ok (s.blk, s.verdict C m4Spec n)
      else .ok (s.blk, wscErrorDevPwdAuthFail)
  else .ok (b, wscErrorCanNotAllocMem)

/-- `ProcessMessageM5`: the length is computed in front of the check of the hash. -/
def processMessageM5 (memory : Bool) : Checked (WscBlock × Nat) :=
  if memory then
    readThen C m5Spec (b.receive msg) fun s =>
      sub s.blk.lastRx.length 12 >>= fun n =>
        if (s.blk.regs .eHash1).toList = (commitment C s.blk.regs .es1 .psk1).toList then
          .ok (s.blk, s.verdict C m5Spec n)
        else
          .ok ((s.setRegs (s.blk.regs.put .selfConfigError [UInt8.ofNat wscErrorHashFail, 0])).blk,
            wscErrorHashFail)
  else .ok (b, wscErrorCanNotAllocMem)

def processMessageM6 (memory : Bool) : Checked (WscBlock × Nat) :=
  if memory then
    readThen C m6Spec (b.receive msg) fun s =>
      if (s.blk.regs .rHash2).toList = (commitment C s.blk.regs .rs2 .psk2).toList then
        sub s.blk.lastRx.length 12 >>= fun n => .ok (s.blk, s.verdict C m6Spec n)
      else .ok (s.blk, wscErrorDevPwdAuthFail)
  else .ok (b, wscErrorCanNotAllocMem)

/-- `ProcessMessageM7`: no hash is checked. -/
def processMessageM7 (memory : Bool) : Checked (WscBlock × Nat) :=
  if memory then
    readThen C m7Spec (b.receive msg) fun s =>
      sub s.blk.lastRx.length 12 >>= fun n => .ok (s.blk, s.verdict C m7Spec n)
  else .ok (b, wscErrorCanNotAllocMem)

def processMessageM8 (memory : Bool) : Checked (WscBlock × Nat) :=
  if memory then
    readThen C m8Spec (b.receive msg) fun s =>
      sub s.blk.lastRx.length 12 >>= fun n => .ok (s.blk, s.verdict C m8Spec n)
  else .ok (b, wscErrorCanNotAllocMem)

end

/-! ## 7. Dispatch -/

/-- The messages that are received. -/
inductive Message
  | m1
  | m2
  | m2D
  | m3
  | m4
  | m5
  | m6
  | m7
  | m8
  deriving DecidableEq, Repr

/-- What a handler finds besides the block and the message: random octets, and memory or none. -/
structure Surroundings where
  random : Octets 192
  memory : Bool

/-- A message goes to its handler. -/
def processMessage (C : WscCrypto) (env : Surroundings) (b : WscBlock) (msg : List UInt8) :
    Message → Checked (WscBlock × Nat)
  | .m1 => processMessageM1 C b msg env.random
  | .m2 => processMessageM2 C b msg
  | .m2D => processMessageM2D C b msg
  | .m3 => processMessageM3 C b msg
  | .m4 => processMessageM4 C b msg env.memory
  | .m5 => processMessageM5 C b msg env.memory
  | .m6 => processMessageM6 C b msg env.memory
  | .m7 => processMessageM7 C b msg env.memory
  | .m8 => processMessageM8 C b msg env.memory

end Mt7601.Wsc
