/-
# The handlers of EAPOL-Key frames

The two sides of the handshake in `common/cmm_wpa.c`: `WpaEAPOLKeyAction`, which sorts a received
frame, the handlers it calls, and what starts and repeats a handshake (`WPAStart4WayHS`,
`WPAStart2WayGroupHS`, `WpaEAPOLStartAction`, and `WPARetryExec` of `ap/ap_wpa.c`).
-/
import Mt7601.Wpa.Sanity

namespace Mt7601.Wpa

/-! ## 1. The replay counter and the frame's length -/

/-- `ADD_ONE_To_64BIT_VAR` -/
def addOneTo64BitVar (counter : Octets lenKeyDescReplay) : Octets lenKeyDescReplay :=
  ⟨(beSucc counter.toList).1, by simp⟩

/-- `Elem->MsgLen` is too short for a key descriptor. -/
def Elem.tooShort (elem : Elem) : Bool :=
  elem.msgLen.toNat < length80211 + length8021H + lengthEapolH + minLenOfEapolKeyMsg

/-- `MacTableLookup`: an entry is a client's or free. -/
def Adapter.macTableLookup (ad : Adapter) (addr : MacAddr) : Bool :=
  ad.entry.entryClient ∧ ad.entry.addr = addr

/-! ## 2. The supplicant's handlers -/

/-- `PeerPairMsg1Action` once the frame has passed. -/
def pairMsg1Passed (C : Crypto) (env : Env) (pMsg1 : EapolPacket) (ad : Adapter) : Outcome :=
  let entry := { ad.entry with
    rCounter := pMsg1.replayCounter
    aNonce := pMsg1.keyNonce
    sNonce := env.random
    ptk := wpaDerivePtk C env ad.staCfg.pmk pMsg1.keyNonce ad.entry.addr env.random
      ad.currentAddress
    wpaState := .ptkInitNegotiating }
  let ad := { ad with entry }
  if !env.alloc .outFrame then { ad, verdict := .outOfMemory }
  else
    let frame := constructEapolMsg C env entry ad.staCfg.groupCipher .pairMsg2 0 entry.sNonce
      (.zero 6) (.zero 32) ad.staCfg.rsnIe {}
    { ad, verdict := .accepted, out := [.send entry.addr ad.currentAddress frame true] }

/-- `PeerPairMsg1Action`: an access point has no supplicant's address and leaves. -/
def peerPairMsg1Action (C : Crypto) (env : Env) (ad : Adapter) (elem : Elem) : Outcome :=
  if !ad.entry.entryClient then { ad }
  else if elem.tooShort then { ad }
  else
    match ad.opMode with
    | .ap => { ad }
    | .sta =>
      (peerWpaMessageSanity C env ad elem.pkt .pairMsg1).andThen (pairMsg1Passed C env elem.pkt)

/-- The end of `PeerPairMsg3Action`: the keys are installed, and in WPA2 the port is opened. -/
def pairMsg3Install (ad : Adapter) : Adapter × List Effect :=
  let ad := { ad with
    entry.wpaState := .ptkInitDone
    staCfg.ptk := ad.entry.ptk }
  let (ad, out) := wpaInstallPairwiseKey ad false
  let ad := { ad with sharedKey := ad.sharedKey.set 0 ad.entry.pairwiseKey }
  if ad.entry.authMode.bWPA2 then
    ({ ad with
        entry.portSecured := .secured
        entry.privacyFilter := .acceptAll
        staCfg.portSecured := .secured },
      out ++ [.staPortSecured])
  else (ad, out)

/-- `PeerPairMsg3Action` once the frame has passed. The counter is saved before the nonce is
compared. -/
def pairMsg3Passed (C : Crypto) (env : Env) (pMsg3 : EapolPacket) (ad : Adapter) : Outcome :=
  let ad := { ad with entry.rCounter := pMsg3.replayCounter }
  if ad.entry.aNonce ≠ pMsg3.keyNonce then { ad, verdict := .rejected .aNonce }
  else if !env.alloc .outFrame then { ad, verdict := .outOfMemory }
  else
    let frame := constructEapolMsg C env ad.entry ad.staCfg.groupCipher .pairMsg4 0 (.zero 32)
      (.zero 6) (.zero 32) [] {}
    let (ad, out) := pairMsg3Install ad
    { ad, verdict := .accepted
      out := out ++ [.send ad.entry.addr ad.currentAddress frame true] }

/-- `PeerPairMsg3Action`: the state of the handshake is not looked at. -/
def peerPairMsg3Action (C : Crypto) (env : Env) (ad : Adapter) (elem : Elem) : Outcome :=
  if !ad.entry.entryClient then { ad }
  else if elem.tooShort then { ad }
  else
    match ad.opMode with
    | .ap => { ad }
    | .sta =>
      (peerWpaMessageSanity C env ad elem.pkt .pairMsg3).andThen (pairMsg3Passed C env elem.pkt)

/-- `PeerGroupMsg1Action` once the frame has passed; `defaultKey` was read before. -/
def groupMsg1Passed (C : Crypto) (env : Env) (defaultKey : UInt8) (pGroup : EapolPacket)
    (ad : Adapter) : Outcome :=
  let ad := { ad with entry.rCounter := pGroup.replayCounter }
  if !env.alloc .outFrame then { ad, verdict := .outOfMemory }
  else
    let frame := constructEapolMsg C env ad.entry ad.staCfg.groupCipher .groupMsg2 defaultKey
      (.zero 32) (.zero 6) (.zero 32) [] {}
    let ad := { ad with
      entry.portSecured := .secured
      entry.privacyFilter := .acceptAll
      staCfg.portSecured := .secured }
    { ad, verdict := .accepted
      out := [.staPortSecured, .send ad.entry.addr ad.currentAddress frame false] }

/-- `PeerGroupMsg1Action`: neither the length of the frame nor the state is looked at. -/
def peerGroupMsg1Action (C : Crypto) (env : Env) (ad : Adapter) (elem : Elem) : Outcome :=
  if !ad.entry.entryClient then { ad }
  else
    match ad.opMode with
    | .ap => { ad }
    | .sta =>
      (peerWpaMessageSanity C env ad elem.pkt .groupMsg1).andThen
        (groupMsg1Passed C env ad.staCfg.defaultKeyId elem.pkt)

/-! ## 3. Starting a handshake -/

/-- The key data of message 1 when the PMK is cached: a key data element with its PMKID. -/
def pmkidKde (pmkid : Octets 16) : List UInt8 :=
  [0xDD, 0x14, 0x00, 0x0F, 0xAC, 0x04] ++ pmkid.toList

/-- The end of `WPAStart4WayHS`: a cached PMK is announced, and becomes the PMK of the BSS. -/
def withPmkid (ad : Adapter) (frame : EapolPacket) : Adapter × EapolPacket :=
  match ad.entry.pmkidCacheIdx with
  | none => (ad, frame)
  | some idx =>
    if ad.entry.authMode = .wpa2 then
      let info := ad.mbss.pmkidCache.get idx
      ({ ad with mbss.pmk := info.pmk },
        { frame with
          keyData := Mem.write frame.keyData 0 (pmkidKde info.pmkid)
          keyDataLen := frame.keyDataLen + 22
          bodyLen := frame.bodyLen + 22 })
    else (ad, frame)

/-- `WPAStart4WayHS`; a station has no authenticator and leaves. -/
def wpaStart4WayHS (C : Crypto) (env : Env) (ad : Adapter) : Adapter × List Effect :=
  if env.closed then (ad, [])
  else
    match ad.opMode with
    | .sta => (ad, [])
    | .ap =>
      if !ad.entry.entryClient then (ad, [])
      else if ad.bssidNum ≤ ad.entry.apidx then (ad, [])
      else if WpaState.ptkStart < ad.entry.wpaState ∨ ad.entry.wpaState < .initPmk then (ad, [])
      else
        let ad := { ad with
          entry.rCounter := addOneTo64BitVar ad.entry.rCounter
          entry.aNonce := env.random }
        if !env.alloc .outFrame then (ad, [])
        else
          let frame := constructEapolMsg C env ad.entry ad.mbss.groupKeyWepStatus .pairMsg1 0
            ad.entry.aNonce (.zero 6) (.zero 32) [] {}
          let (ad, frame) := withPmkid ad frame
          ({ ad with entry.wpaState := .ptkStart },
            [.send ad.entry.addr ad.mbss.bssid frame (ad.entry.portSecured ≠ .secured)])

/-- `WPAStart2WayGroupHS`. In a station the pointers to the BSS are `NULL`: the copies that read
through them come before the check for one. -/
def wpaStart2WayGroupHS (C : Crypto) (env : Env) (ad : Adapter) : Adapter × List Effect :=
  if !ad.entry.entryClient then (ad, [])
  else
    match ad.opMode with
    | .sta =>
      if !env.alloc .outFrame then (ad, [])
      else
        ({ ad with entry.rCounter := addOneTo64BitVar ad.entry.rCounter },
          if !ad.entry.authMode.bWPA2 ∨ env.alloc .keyDataPool then [.nullCopy] else [])
    | .ap =>
      if ad.bssidNum ≤ ad.entry.apidx then (ad, [])
      else if !env.alloc .outFrame then (ad, [])
      else
        let ad := { ad with entry.rCounter := addOneTo64BitVar ad.entry.rCounter }
        let frame := constructEapolMsg C env ad.entry ad.mbss.groupKeyWepStatus .groupMsg1
          ad.mbss.defaultKeyId ad.mbss.gNonce env.txTsc ad.mbss.gtk [] {}
        (ad, [.send ad.entry.addr ad.mbss.bssid frame false])

/-! ## 4. The authenticator's handlers -/

/-- The information element message 3 repeats. -/
def MultissidStruct.rsnieFor (mbss : MultissidStruct) (authMode : AuthMode) : List UInt8 :=
  if authMode = .wpa ∨ authMode = .wpaPsk then mbss.rsnIe0
  else if mbss.authMode = .wpa1PskWpa2Psk ∨ mbss.authMode = .wpa1Wpa2 then mbss.rsnIe1
  else mbss.rsnIe0

/-- `PeerPairMsg2Action` once the frame has passed. -/
def pairMsg2Passed (C : Crypto) (env : Env) (ad : Adapter) : Outcome :=
  if !env.alloc .outFrame then { ad, verdict := .outOfMemory }
  else
    let entry := { ad.entry with
      wpaState := .ptkInitNegotiating
      rCounter := addOneTo64BitVar ad.entry.rCounter }
    let frame := constructEapolMsg C env entry ad.mbss.groupKeyWepStatus .pairMsg3
      ad.mbss.defaultKeyId entry.aNonce env.txTsc ad.mbss.gtk (ad.mbss.rsnieFor entry.authMode) {}
    { ad := { ad with entry := { entry with reTryCounter := 10 } }
      verdict := .accepted
      out := [.send entry.addr ad.mbss.bssid frame (entry.portSecured ≠ .secured)] }

/-- `PeerPairMsg2Action`. The nonce and the PTK of the frame are stored before it is checked, the
nonce in a station as well. -/
def peerPairMsg2Action (C : Crypto) (env : Env) (ad : Adapter) (elem : Elem) : Outcome :=
  if !ad.entry.entryClient then { ad }
  else if elem.tooShort then { ad }
  else if ad.entry.wpaState < .ptkStart then { ad }
  else
    match ad.opMode with
    | .sta => { ad := { ad with entry.sNonce := elem.pkt.keyNonce } }
    | .ap =>
      if ad.bssidNum ≤ ad.entry.apidx then { ad }
      else
        let ad := { ad with
          entry.sNonce := elem.pkt.keyNonce
          entry.ptk := wpaDerivePtk C env ad.mbss.pmk ad.entry.aNonce ad.mbss.bssid
            elem.pkt.keyNonce ad.entry.addr }
        (peerWpaMessageSanity C env ad elem.pkt .pairMsg2).andThen (pairMsg2Passed C env)

/-- `RTMPSearchPMKIDCache` -/
def rtmpSearchPmkidCache (cache : List.Vector ApBssidInfo 8) (addr : MacAddr) : Option (Fin 8) :=
  (List.finRange 8).find? fun i => (cache.get i).valid ∧ (cache.get i).mac = addr

/-- The place `RTMPAddPMKIDCache` gives up when the cache is full. -/
def evictedPmkid (cache : List.Vector ApBssidInfo 8) : Fin 8 :=
  ((List.finRange 8).foldl (fun (st : UInt64 × Fin 8) i =>
    if (st.1 = 0 ∧ st.2 = 0) ∨ (st.1 ≠ 0 ∧ st.1 < (cache.get i).refreshTime) then
      ((cache.get i).refreshTime, i)
    else st) (0, 0)).2

/-- `RTMPAddPMKIDCache`: the place of the station, else a free one, else the evicted one. -/
def rtmpAddPmkidCache (cache : List.Vector ApBssidInfo 8) (now : UInt64) (addr : MacAddr)
    (pmkid : Octets 16) (pmk : Octets 32) : List.Vector ApBssidInfo 8 :=
  match rtmpSearchPmkidCache cache addr with
  | some i => cache.set i { cache.get i with refreshTime := now, pmkid, pmk }
  | none =>
    let i := ((List.finRange 8).find? fun i => !(cache.get i).valid).getD (evictedPmkid cache)
    cache.set i { valid := true, mac := addr, refreshTime := now, pmkid, pmk }

/-- "PMK Name" -/
def pmkidLabel : List UInt8 := [0x50, 0x4d, 0x4b, 0x20, 0x4e, 0x61, 0x6d, 0x65]

/-- The PMK of a finished WPA2 handshake goes into the cache, in an access point. -/
def cachePmk (C : Crypto) (env : Env) (ad : Adapter) : Adapter :=
  if ad.opMode = .ap ∧ ad.entry.authMode = .wpa2 then
    let digest := C.hmacSha1 ad.mbss.pmk.toList
      (pmkidLabel ++ ad.mbss.bssid.toList ++ ad.entry.addr.toList)
    let pmkidCache := rtmpAddPmkidCache ad.mbss.pmkidCache env.now ad.entry.addr
      (digest.slice 0 16) ad.mbss.pmk
    { ad with mbss.pmkidCache := pmkidCache }
  else ad

/-- `PeerPairMsg4Action` once the frame has passed. -/
def pairMsg4Passed (C : Crypto) (env : Env) (ad : Adapter) : Outcome :=
  let (ad, installed) := wpaInstallPairwiseKey ad true
  let ad := { ad with
    entry.privacyFilter := .acceptAll
    entry.wpaState := .ptkInitDone
    entry.portSecured := .secured }
  if ad.entry.authMode.bWPA2 then
    { ad := cachePmk C env { ad with entry.gtkState := .established }
      verdict := .accepted
      out := installed ++ [.setKeyDoneWpa2] }
  else
    let (ad, out) := wpaStart2WayGroupHS C env ad
    { ad := { ad with entry.reTryCounter := 20 }
      verdict := .accepted
      out := installed ++ out }

/-- `PeerPairMsg4Action`, which a station runs as well. -/
def peerPairMsg4Action (C : Crypto) (env : Env) (ad : Adapter) (elem : Elem) : Outcome :=
  if !ad.entry.entryClient then { ad }
  else if elem.tooShort then { ad }
  else if ad.entry.wpaState < .ptkInitNegotiating then { ad }
  else if ad.opMode = .ap ∧ ad.bssidNum ≤ ad.entry.apidx then { ad }
  else (peerWpaMessageSanity C env ad elem.pkt .pairMsg4).andThen (pairMsg4Passed C env)

/-- `PeerGroupMsg2Action` once the frame has passed. -/
def groupMsg2Passed (ad : Adapter) : Outcome :=
  { ad := { ad with entry.gtkState := .established }
    verdict := .accepted
    out := [if ad.entry.authMode.bWPA2 then .setKeyDoneWpa2 else .setKeyDoneWpa1] }

/-- `PeerGroupMsg2Action`; its length is the rest behind the 802.11 header, in 32 bits. -/
def peerGroupMsg2Action (C : Crypto) (env : Env) (ad : Adapter) (elem : Elem) : Outcome :=
  if !ad.entry.entryClient then { ad }
  else if (elem.msgLen - 24).toUInt32.toNat < length8021H + lengthEapolH + minLenOfEapolKeyMsg then
    { ad }
  else if ad.entry.wpaState ≠ .ptkInitDone then { ad }
  else if ad.opMode = .ap ∧ ad.bssidNum ≤ ad.entry.apidx then { ad }
  else (peerWpaMessageSanity C env ad elem.pkt .groupMsg2).andThen groupMsg2Passed

/-! ## 5. Requests of a station -/

/-- A request for a new group key: it is derived, every finished client of the BSS is told, and it
is installed. -/
def groupKeyRequest (C : Crypto) (env : Env) (ad : Adapter) : Adapter × List Effect :=
  let ad := { ad with
    mbss.gNonce := env.random
    mbss.defaultKeyId := if ad.mbss.defaultKeyId = 1 then 2 else 1
    mbss.gtk := wpaDeriveGtk C env ad.mbss.gmk env.random ad.mbss.bssid }
  let (ad, out) :=
    if ad.entry.entryClient ∧ ad.entry.wpaState = .ptkInitDone then
      let (ad, out) := wpaStart2WayGroupHS C env { ad with entry.gtkState := .negotiating }
      ({ ad with entry.reTryCounter := 20 }, out)
    else (ad, [])
  let (ad, installed) := wpaInstallSharedKey ad ad.mbss.groupKeyWepStatus ad.entry.apidx
    ad.mbss.defaultKeyId true ad.mbss.gtk.toList lenTkipGtk
  (ad, out ++ installed)

/-- A request for a new pairwise key: the entry goes back to the start of the handshake. -/
def pairwiseKeyRequest (C : Crypto) (env : Env) (ad : Adapter) : Adapter × List Effect :=
  let ad := { ad with
    entry.pairwiseKey := {}
    entry.sst := .assoc
    entry.wpaState :=
      if ad.entry.authMode = .wpa ∨ ad.entry.authMode = .wpa2 then .initPmk
      else if ad.entry.authMode = .wpaPsk ∨ ad.entry.authMode = .wpa2Psk then .initPsk
      else ad.entry.wpaState
    entry.gtkState := .negotiating
    entry.privacyFilter := .filter8021xWep
    entry.reTryCounter := 0
    entry.portSecured := .notSecured
    entry.rCounter := .zero lenKeyDescReplay }
  let (ad, out) := wpaStart4WayHS C env ad
  (ad, .removePairwiseKey :: out)

/-! ## 6. The frames of a state machine -/

/-- The frames with the key acknowledgement bit, which an authenticator sends. -/
def wpaEapolKeyAck (C : Crypto) (env : Env) (ad : Adapter) (elem : Elem) : Outcome :=
  let info := elem.pkt.keyInfo
  if !info.secure ∧ !info.request ∧ !info.error ∧ info.keyType = pairwiseKeyType then
    if !info.keyMic then peerPairMsg1Action C env ad elem else peerPairMsg3Action C env ad elem
  else if info.secure ∧ info.keyMic ∧ !info.request ∧ !info.error then
    if info.keyType = pairwiseKeyType then peerPairMsg3Action C env ad elem
    else peerGroupMsg1Action C env ad elem
  else { ad }

/-- The frames without it, which a supplicant sends. Failure reports and requests are an access
point's. -/
def wpaEapolKeyNoAck (C : Crypto) (env : Env) (ad : Adapter) (elem : Elem) : Outcome :=
  let info := elem.pkt.keyInfo
  if ad.opMode = .ap ∧ info.keyMic ∧ info.request ∧ info.error then
    { ad, out := [.counterMeasure] }
  else if !info.request ∧ !info.error ∧ info.keyMic then
    if !info.secure ∧ info.keyType = pairwiseKeyType then
      if elem.pkt.keyDataLen = 0 then peerPairMsg4Action C env ad elem
      else peerPairMsg2Action C env ad elem
    else if info.secure ∧ info.keyType = pairwiseKeyType then peerPairMsg4Action C env ad elem
    else if info.secure ∧ info.keyType = groupKeyType then peerGroupMsg2Action C env ad elem
    else { ad }
  else if ad.opMode = .ap ∧ info.request ∧ !info.error then
    let (ad, out) :=
      if info.keyType = groupKeyType then groupKeyRequest C env ad
      else pairwiseKeyRequest C env ad
    { ad, out }
  else { ad }

/-- What `WpaEAPOLKeyAction` asks of a frame and of its entry before it sorts the frame. The
length it compares with is unsigned: a frame shorter than its headers makes it very large. -/
def wpaEapolKeyAdmits (ad : Adapter) (elem : Elem) : Bool :=
  let pkt := elem.pkt
  let entry := ad.entry
  let keyDescVer := pkt.keyInfo.keyDescVer
  ad.macTableLookup elem.addr2 ∧
  AuthMode.wpa.ctorIdx ≤ entry.authMode.ctorIdx ∧
  UInt64.ofNat (pkt.bodyLen.toNat + lengthEapolH) ≤ elem.msgLen - 24 - 8 ∧
  (pkt.proVer = eapolVer ∨ pkt.proVer = eapolVer2) ∧
  (pkt.type = wpa1KeyDesc ∨ pkt.type = wpa2KeyDesc) ∧
  (entry.wepStatus = .encryption2Enabled → keyDescVer = keyDescTkip) ∧
  (entry.wepStatus = .encryption3Enabled →
    keyDescVer = keyDescAes ∨ keyDescVer = keyDescExt) ∧
  entry.sst = .assoc ∧ WpaState.initPsk ≤ entry.wpaState

/-- `WpaEAPOLKeyAction` -/
def wpaEapolKeyAction (C : Crypto) (env : Env) (ad : Adapter) (elem : Elem) : Outcome :=
  if !wpaEapolKeyAdmits ad elem then { ad }
  else if elem.pkt.keyInfo.keyAck then wpaEapolKeyAck C env ad elem
  else wpaEapolKeyNoAck C env ad elem

/-- `WpaEAPOLStartAction`, for the station that asks or, when the driver itself has queued the
event, for the one that has just associated. -/
def wpaEapolStartAction (C : Crypto) (env : Env) (ad : Adapter) (addr : MacAddr) :
    Adapter × List Effect :=
  if ad.macTableLookup addr ∧ ad.entry.portSecured = .notSecured ∧
      ad.entry.wpaState < .ptkStart ∧
      (ad.entry.authMode = .wpaPsk ∨ ad.entry.authMode = .wpa2Psk ∨
        (ad.entry.authMode = .wpa2 ∧ ad.entry.pmkidCacheIdx ≠ none)) then
    wpaStart4WayHS C env { ad with
      entry.privacyFilter := .filter8021xWep
      entry.wpaState := .initPsk
      entry.portSecured := .notSecured
      entry.rCounter := .zero lenKeyDescReplay
      entry.reTryCounter := 0 }
  else (ad, [])

/-- `MlmeDeAuthAction`: the entry is cleared. -/
def mlmeDeAuthAction (env : Env) (ad : Adapter) : Adapter × List Effect :=
  if !env.alloc .mlme then (ad, []) else ({ ad with entry := {} }, [.deauth])

/-- `WPARetryExec`, when the retry timer of the entry expires. -/
def wpaRetryExec (C : Crypto) (env : Env) (ad : Adapter) : Adapter × List Effect :=
  if !ad.entry.entryClient then (ad, [])
  else
    let ad := { ad with entry.reTryCounter := ad.entry.reTryCounter + 1 }
    let ctr := ad.entry.reTryCounter
    if ad.entry.authMode = .wpa ∨ ad.entry.authMode = .wpaPsk ∨ ad.entry.authMode = .wpa2 ∨
        ad.entry.authMode = .wpa2Psk then
      if 21 < ctr then
        let (ad, out) := mlmeDeAuthAction env ad
        (ad, .groupHsTimeout :: out)
      else if 20 < ctr then
        if ad.entry.gtkState = .negotiating then wpaStart2WayGroupHS C env ad else (ad, [])
      else if 3 < ctr then
        let (ad, out) := mlmeDeAuthAction env ad
        (ad, .pairwiseHsTimeout :: out)
      else if ctr = 3 then wpaStart4WayHS C env ad
      else if ad.entry.wpaState = .ptkStart ∨ ad.entry.wpaState = .initPsk ∨
          ad.entry.wpaState = .initPmk then wpaStart4WayHS C env ad
      else (ad, [])
    else (ad, [])

end Mt7601.Wpa
