/-
# Checking a received EAPOL-Key frame and taking its keys

`PeerWpaMessageSanity` of `common/cmm_wpa.c` with the key data parser it calls
(`RTMPParseEapolKeyData`) and the installation of keys (`WPAInstallPairwiseKey`,
`WPAInstallSharedKey`).
-/
import Mt7601.Wpa.Construct

namespace Mt7601.Wpa

/-! ## 1. Installing keys -/

/-- The pairwise key `WPAInstallPairwiseKey` fills in, if the cipher is one it knows. -/
def pairwiseKeyOf (wepStatus : WepStatus) (ptk : Octets lenPtk) (bAE : Bool) : Option CipherKey :=
  match wepStatus with
  | .encryption2Enabled => some {
      key := ptk.slice offsetOfPtkTk lenTk
      txMic := ptk.slice (if bAE then offsetOfApTkipTxMic else offsetOfStaTkipTxMic) lenTkipMic
      rxMic := ptk.slice (if bAE then offsetOfApTkipRxMic else offsetOfStaTkipRxMic) lenTkipMic
      cipherAlg := .tkip
      keyLen := lenTk }
  | .encryption3Enabled => some {
      key := ptk.slice offsetOfPtkTk lenTk
      cipherAlg := .aes
      keyLen := lenTk }
  | _ => none

/-- `WPAInstallPairwiseKey` -/
def wpaInstallPairwiseKey (ad : Adapter) (bAE : Bool) : Adapter × List Effect :=
  match pairwiseKeyOf ad.entry.wepStatus ad.entry.ptk bAE with
  | none => ({ ad with entry.pairwiseKey := {} }, [])
  | some key => ({ ad with entry.pairwiseKey := key }, [.addPairwiseKey key])

/-- `CipherAlg` of a group cipher. -/
def groupCipherAlg : WepStatus → Option CipherAlg
  | .groupWep40Enabled => some .wep64
  | .groupWep104Enabled => some .wep128
  | .encryption2Enabled => some .tkip
  | .encryption3Enabled => some .aes
  | _ => none

/-- The shared key `WPAInstallSharedKey` leaves in its place, and whether it gets to the ASIC. -/
def sharedKeyOf (groupCipher : WepStatus) (bAE : Bool) (gtk : List UInt8) (gtkLen : Nat) :
    CipherKey × Bool :=
  match groupCipherAlg groupCipher with
  | none => ({}, false)
  | some alg =>
    if groupCipher = .groupWep40Enabled ∨ groupCipher = .groupWep104Enabled then
      if gtkLen ≠ lenWep64 ∧ gtkLen ≠ lenWep128 then ({ cipherAlg := alg }, false)
      else ({ key := .ofList 16 (gtk.take gtkLen), cipherAlg := alg, keyLen := gtkLen }, true)
    else if gtkLen < lenTk then ({ cipherAlg := alg }, false)
    else if alg = .tkip then
      ({ key := .ofList 16 gtk
         txMic := .ofList lenTkipMic (gtk.drop (if bAE then 16 else 24))
         rxMic := .ofList lenTkipMic (gtk.drop (if bAE then 24 else 16))
         cipherAlg := alg, keyLen := lenTk }, true)
    else ({ key := .ofList 16 gtk, cipherAlg := alg, keyLen := lenTk }, true)

/-- `WPAInstallSharedKey` -/
def wpaInstallSharedKey (ad : Adapter) (groupCipher : WepStatus) (bssIdx keyIdx : UInt8)
    (bAE : Bool) (gtk : List UInt8) (gtkLen : Nat) : Adapter × List Effect :=
  if ad.maxMbssidNum ≤ bssIdx then (ad, [])
  else
    let k := sharedKeyOf groupCipher bAE gtk gtkLen
    ({ ad with sharedKey := .ofFn fun i =>
        if i.val = keyIdx.toNat then k.1 else ad.sharedKey.get i },
      if k.2 then [.addSharedKey keyIdx k.1] else [])

/-! ## 2. The key data -/

/-- What `RTMPParseEapolKeyData` has found so far: `GTK`, `GTKLEN` and `DefaultIdx`. -/
structure GtkFound where
  gtk : List UInt8 := []
  gtkLen : Nat := 0
  defaultIdx : Nat := 0
  deriving DecidableEq, Repr

/-- The loop over the elements of the key data, from offset `skip` on; `none` is its
`return FALSE`. An element is looked at if it ends within `keyDataLength`, or is at least stated
to: its length octet itself may lie behind the end. -/
def parseKde (keyData : List UInt8) (keyDataLength skip : Nat) (found : GtkFound) :
    Option GtkFound :=
  let eid := keyData.getD skip 0
  let len := (keyData.getD (skip + 1) 0).toNat
  if skip + 2 + len ≤ keyDataLength then
    if eid = wpaKdeType ∧ Mem.read keyData (skip + 2) 3 = ouiWpa2 ∧
        keyData.getD (skip + 5) 0 = kdeGtk then
      -- `GTKLEN` is an octet, so a length below six wraps
      let gtkLen := (len + 256 - 6) % 256
      if gtkLen < lenWep64 then none
      else parseKde keyData keyDataLength (skip + 2 + len)
        { gtk := Mem.read keyData (skip + 8) gtkLen
          gtkLen
          defaultIdx := (keyData.getD (skip + 6) 0).toNat % 4 }
    else parseKde keyData keyDataLength (skip + 2 + len) found
  else some found
termination_by keyDataLength - skip

/-- What the parser takes from the key data of a message. -/
def gtkOfKeyData (keyData : List UInt8) (keyDataLen : Nat) (groupKeyIndex : Nat) (bWPA2 : Bool) :
    Option GtkFound :=
  if bWPA2 then parseKde keyData keyDataLen 0 {}
  else some ⟨Mem.read keyData 0 keyDataLen, keyDataLen, groupKeyIndex⟩

/-- `RTMPParseEapolKeyData`; `none` is its `return FALSE`. `keyDataLen` is an octet. -/
def rtmpParseEapolKeyData (ad : Adapter) (keyData : List UInt8) (keyDataLen : UInt8)
    (groupKeyIndex : Nat) (msgType : MsgType) (bWPA2 : Bool) : Option (Adapter × List Effect) :=
  if (msgType = .pairMsg2 ∨ msgType = .pairMsg3) ∧ ¬ (bWPA2 ∧ msgType = .pairMsg3) then
    some (ad, [])
  else
    match gtkOfKeyData keyData keyDataLen.toNat groupKeyIndex bWPA2 with
    | none => none
    | some found =>
      if 3 < found.defaultIdx then none
      else
        match ad.opMode with
        | .ap => some (ad, [])
        | .sta =>
          let gtk := Mem.write ad.staCfg.gtk 0 found.gtk
          let ad := { ad with
            staCfg.gtk := gtk
            staCfg.defaultKeyId := UInt8.ofNat found.defaultIdx }
          some (wpaInstallSharedKey ad ad.staCfg.groupCipher 0 ad.staCfg.defaultKeyId false gtk
            found.gtkLen)

/-! ## 3. The checks -/

/-- The replay counter of a frame for the supplicant: larger than the stored one, or zero. -/
def replayOkSupplicant (received stored : Octets lenKeyDescReplay) : Bool :=
  rtmpCompareMemory received.toList stored.toList = 1 ∨ received = .zero lenKeyDescReplay

/-- The first check of `PeerWpaMessageSanity`. -/
def replayOk (msgType : MsgType) (received stored : Octets lenKeyDescReplay) : Bool :=
  if msgType = .pairMsg1 ∨ msgType = .pairMsg3 ∨ msgType = .groupMsg1 then
    replayOkSupplicant received stored
  else received = stored

/-- The second check, for every message but the first. -/
def micOk (C : Crypto) (msgType : MsgType) (ptk : Octets lenPtk) (pMsg : EapolPacket) : Bool :=
  msgType = .pairMsg1 ∨
    pMsg.keyMic = micOf C pMsg.keyInfo.keyDescVer ptk
      { pMsg with keyMic := .zero lenKeyDescMic }.micInput

/-- `KEYDATA` when the parser is called, with the memory behind it, and the length it is told:
the key data deciphered, or a copy of it; `none` is the message whose key data is not parsed. -/
def keyDataOf (C : Crypto) (env : Env) (msgType : MsgType) (bWPA2 : Bool) (ptk : Octets lenPtk)
    (pMsg : EapolPacket) : Option (List UInt8 × UInt16) :=
  let buffer := List.replicate maxLenOfRsnie 0 ++ env.heap
  let keyDataLen := pMsg.keyDataLen.toNat
  if (msgType = .pairMsg3 ∧ bWPA2) ∨ msgType = .groupMsg1 then
    if pMsg.keyInfo.keyDescVer = keyDescExt ∨ pMsg.keyInfo.keyDescVer = keyDescAes then
      if env.alloc .unwrap then
        let plain := aesKeyUnwrap C (kekOf ptk) pMsg.keyData keyDataLen
        some (Mem.write buffer 0 plain, UInt16.ofNat plain.length)
      else some (buffer, 0)
    else if env.alloc .arc4 then
      some (Mem.write buffer 0
        (tkipGtkKeyWrap (kekOf ptk) pMsg.keyIv (Mem.read pMsg.keyData 0 keyDataLen)),
        pMsg.keyDataLen)
    else some (buffer, pMsg.keyDataLen)
  else if msgType = .pairMsg2 ∨ (msgType = .pairMsg3 ∧ !bWPA2) then
    some (Mem.write buffer 0 (Mem.read pMsg.keyData 0 keyDataLen), pMsg.keyDataLen)
  else none

/-- The third part: the key data, if there is any, deciphered and parsed. -/
def peerWpaKeyData (C : Crypto) (env : Env) (ad : Adapter) (pMsg : EapolPacket)
    (msgType : MsgType) : Option (Adapter × List Effect) :=
  let bWPA2 := ad.entry.authMode.bWPA2
  if pMsg.keyDataLen = 0 then some (ad, [])
  else
    match keyDataOf C env msgType bWPA2 ad.entry.ptk pMsg with
    | none => some (ad, [])
    | some (keyData, keyDataLen) =>
      let groupKeyIndex :=
        if !bWPA2 ∧ msgType = .groupMsg1 then pMsg.keyInfo.keyIndex.toNat else 0
      rtmpParseEapolKeyData ad keyData keyDataLen.toUInt8 groupKeyIndex msgType bWPA2

/-- What `PeerWpaMessageSanity` leaves behind; it returns `TRUE` if nothing failed. -/
structure Sanity where
  ad : Adapter
  failure : Option Reject := none
  out : List Effect := []

/-- What a handler makes of it: it returns on `FALSE`. -/
def Sanity.andThen (s : Sanity) (handle : Adapter → Outcome) : Outcome :=
  match s.failure with
  | some why => { ad := s.ad, verdict := .rejected why, out := s.out }
  | none =>
    let o := handle s.ad
    { o with out := s.out ++ o.out }

/-- `PeerWpaMessageSanity` -/
def peerWpaMessageSanity (C : Crypto) (env : Env) (ad : Adapter) (pMsg : EapolPacket)
    (msgType : MsgType) : Sanity :=
  if !env.alloc .keyData then { ad, failure := some .noKeyDataBuffer }
  else if !replayOk msgType pMsg.replayCounter ad.entry.rCounter then
    { ad, failure := some .replayCounter, out := [.replayCounterDiff] }
  else if !micOk C msgType ad.entry.ptk pMsg then
    { ad, failure := some .mic, out := [.micDiff] }
  else
    match peerWpaKeyData C env ad pMsg msgType with
    | none => { ad, failure := some .keyData }
    | some (ad, out) => { ad, out }

end Mt7601.Wpa
