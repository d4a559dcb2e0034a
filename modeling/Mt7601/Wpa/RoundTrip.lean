/-
# The group key from one end to the other

A message 3 of WPA2 or a group message 1 of either version, built by `ConstructEapolMsg`, meets
`PeerWpaMessageSanity` at an entry with the same pairwise key. It carries the sender's group key to
the installation exactly if the key data fits the buffer of the receiver: `KEYDATA` has the 255
octets an information element can have, but the element comes with the key and the padding, and the
parser is told the length in an octet.
-/
import Mt7601.Wpa.KeyData
import Mt7601.Wpa.Supplicant

namespace Mt7601.Wpa

/-! ## 1. A frame on the way -/

/-- A frame as it is received: behind its key data stands whatever the buffer held. -/
def EapolPacket.received (pMsg : EapolPacket) (behind : List UInt8) : EapolPacket :=
  { pMsg with keyData := Mem.read pMsg.keyData 0 pMsg.keyDataLen.toNat ++ behind }

/-- The octets in front of the key data. -/
def EapolPacket.headerOctets (pMsg : EapolPacket) : List UInt8 :=
  { pMsg with keyData := [] }.octets

theorem EapolPacket.octets_eq (pMsg : EapolPacket) :
    pMsg.octets = pMsg.headerOctets ++ pMsg.keyData := by
  simp [headerOctets, octets]

@[simp] theorem EapolPacket.length_headerOctets (pMsg : EapolPacket) :
    pMsg.headerOctets.length = minLenOfEapolKeyMsg + 4 := by
  simp only [headerOctets, octets, uint16Octets, KeyInfo.octets, List.length_append,
    List.length_cons, List.length_nil, List.Vector.toList_length]
  rfl

/-- The body length a frame states is the one it has. -/
def EapolPacket.Sized (pMsg : EapolPacket) : Prop :=
  pMsg.bodyLen.toNat = minLenOfEapolKeyMsg + pMsg.keyDataLen.toNat

/-- The code of a frame that states its length does not depend on what is behind it. -/
theorem EapolPacket.micInput_of_sized {pMsg : EapolPacket} (h : pMsg.Sized) :
    pMsg.micInput = pMsg.headerOctets ++ Mem.read pMsg.keyData 0 pMsg.keyDataLen.toNat := by
  have hlen : pMsg.bodyLen.toNat + 4 = pMsg.headerOctets.length + pMsg.keyDataLen.toNat := by
    rw [EapolPacket.length_headerOctets, h]
    omega
  rw [EapolPacket.micInput, hlen, EapolPacket.octets_eq, Mem.read_append]

theorem EapolPacket.micInput_received {pMsg : EapolPacket} (h : pMsg.Sized) (behind : List UInt8) :
    (pMsg.received behind).micInput = pMsg.micInput := by
  have hread : Mem.read (Mem.read pMsg.keyData 0 pMsg.keyDataLen.toNat ++ behind) 0
      pMsg.keyDataLen.toNat = Mem.read pMsg.keyData 0 pMsg.keyDataLen.toNat := by
    have hr := Mem.read_zero_of_append (l := Mem.read pMsg.keyData 0 pMsg.keyDataLen.toNat)
      (m := behind)
    rwa [Mem.length_read] at hr
  have hreceived : (pMsg.received behind).Sized := h
  rw [micInput_of_sized hreceived, micInput_of_sized h]
  rw [show (pMsg.received behind).headerOctets = pMsg.headerOctets from rfl]
  exact congrArg (pMsg.headerOctets ++ ·) hread

/-- A frame carries the code of its octets under a key. -/
def EapolPacket.Signed (C : Crypto) (ptk : Octets lenPtk) (pMsg : EapolPacket) : Prop :=
  pMsg.keyMic =
    micOf C pMsg.keyInfo.keyDescVer ptk { pMsg with keyMic := .zero lenKeyDescMic }.micInput

theorem EapolPacket.Signed.received {C : Crypto} {ptk : Octets lenPtk} {pMsg : EapolPacket}
    (h : pMsg.Signed C ptk) (hsized : pMsg.Sized) (behind : List UInt8) :
    (pMsg.received behind).Signed C ptk := by
  have hinput := @EapolPacket.micInput_received { pMsg with keyMic := .zero lenKeyDescMic } hsized
    behind
  rw [EapolPacket.Signed] at h ⊢
  exact h.trans (congrArg (micOf C pMsg.keyInfo.keyDescVer ptk) hinput.symm)

theorem micOk_of_signed {C : Crypto} {ptk : Octets lenPtk} {pMsg : EapolPacket} {msgType : MsgType}
    (h : pMsg.Signed C ptk) : micOk C msgType ptk pMsg = true := by
  rw [micOk, decide_eq_true_eq]
  exact .inr h

/-- `CalculateMIC` signs a frame whose field is clear. -/
theorem signed_calculateMic {C : Crypto} {env : Env} {keyDescVer : BitVec 3} {ptk : Octets lenPtk}
    {pMsg : EapolPacket} (hmic : env.alloc .mic = true) (hver : pMsg.keyInfo.keyDescVer = keyDescVer)
    (hclear : pMsg.keyMic = .zero lenKeyDescMic) :
    (calculateMic C env keyDescVer ptk pMsg).Signed C ptk := by
  have hback : { pMsg with keyMic := .zero lenKeyDescMic } = pMsg := by rw [← hclear]
  rw [calculateMic, if_pos hmic, EapolPacket.Signed]
  dsimp only
  rw [hback, hver]

/-! ## 2. A frame that carries the group key -/

section

variable {C : Crypto} {tx rx : Env} {pEntry : MacTableEntry} {groupKeyWepStatus : WepStatus}
  {msgType : MsgType} {defaultKeyIdx : UInt8} {keyNonce : Octets 32} {txRsc : Octets 6}
  {gtk : Octets 32} {rsnie : RsnIe} {pMsg : EapolPacket}

/-- The key data of a frame before it is enciphered. -/
def groupKeyPlain (pEntry : MacTableEntry) (groupKeyWepStatus : WepStatus) (msgType : MsgType)
    (defaultKeyIdx : UInt8) (gtk : Octets 32) (rsnie : RsnIe) : List UInt8 :=
  paddedKeyData (keyDescVerOf pEntry.wepStatus groupKeyWepStatus)
    (plainKeyData pEntry.authMode.bWPA2 groupKeyWepStatus msgType defaultKeyIdx gtk rsnie.octets)

/-- It fits the buffer of the receiver. -/
def KeyDataFits (pEntry : MacTableEntry) (groupKeyWepStatus : WepStatus) (msgType : MsgType)
    (defaultKeyIdx : UInt8) (gtk : Octets 32) (rsnie : RsnIe) : Prop :=
  (groupKeyPlain pEntry groupKeyWepStatus msgType defaultKeyIdx gtk rsnie).length ≤ maxLenOfRsnie

theorem length_groupKeyPlain_lt :
    (groupKeyPlain pEntry groupKeyWepStatus msgType defaultKeyIdx gtk rsnie).length < 400 := by
  have hgtk := gtkLenOf_cases groupKeyWepStatus
  have hrsnie := rsnie.length_le
  have hpadded := (length_le_paddedKeyData (keyDescVerOf pEntry.wepStatus groupKeyWepStatus)
    (plainKeyData pEntry.authMode.bWPA2 groupKeyWepStatus msgType defaultKeyIdx gtk
      rsnie.octets)).2
  have hplain : (plainKeyData pEntry.authMode.bWPA2 groupKeyWepStatus msgType defaultKeyIdx gtk
      rsnie.octets).length ≤ 300 := by
    have hie : (rtmpInsertRsnie rsnie.octets).length ≤ 257 := by
      rw [rtmpInsertRsnie_eq]
      simp only [List.length_cons]
      omega
    rw [plainKeyData]
    split_ifs <;> simp [wpaConstructKdeHdr, ouiWpa2] <;> omega
  rw [groupKeyPlain]
  omega

variable (groupKeyWepStatus defaultKeyIdx gtk rsnie) in
theorem sixteen_le_length_plainKeyData (hmsg : gtkIncluded pEntry.authMode.bWPA2 msgType) :
    16 ≤ (plainKeyData pEntry.authMode.bWPA2 groupKeyWepStatus msgType defaultKeyIdx gtk
      rsnie.octets).length := by
  have hgtk := gtkLenOf_cases groupKeyWepStatus
  rw [plainKeyData, if_pos hmsg]
  simp only [List.length_append, List.length_take, List.Vector.toList_length]
  omega

/-- The enciphered key data of a frame that carries the group key. -/
theorem constructEapolKeyData_of_gtkIncluded (hpool : tx.alloc .keyDataPool = true)
    (hmsg : gtkIncluded pEntry.authMode.bWPA2 msgType) (keyDescVer : BitVec 3) :
    constructEapolKeyData C tx pEntry groupKeyWepStatus keyDescVer msgType defaultKeyIdx gtk
        rsnie.octets pMsg =
      let sent := cipherKeyData C tx keyDescVer pEntry.ptk pMsg.keyIv
        (plainKeyData pEntry.authMode.bWPA2 groupKeyWepStatus msgType defaultKeyIdx gtk
          rsnie.octets)
      { pMsg with
        keyData := Mem.write pMsg.keyData 0 sent
        keyDataLen := UInt16.ofNat sent.length
        bodyLen := pMsg.bodyLen + UInt16.ofNat sent.length } := by
  have hne : ¬ (msgType = .pairMsg1 ∨ msgType = .pairMsg4 ∨ msgType = .groupMsg2) := by
    rintro (rfl | rfl | rfl) <;> simp [gtkIncluded] at hmsg
  rw [constructEapolKeyData, if_neg hne, hpool]
  simp only [hmsg, if_true, Bool.not_true, Bool.false_eq_true, if_false]

theorem keyDescVerOf_cases (wepStatus groupKeyWepStatus : WepStatus) :
    keyDescVerOf wepStatus groupKeyWepStatus = keyDescAes ∨
      keyDescVerOf wepStatus groupKeyWepStatus = keyDescTkip := by
  rw [keyDescVerOf]
  split
  · exact .inl rfl
  · exact .inr rfl

/-- The enciphered key data is as long as the plain one, or eight octets longer. -/
theorem length_cipherKeyData (htx : tx.allocs) (keyDescVer : BitVec 3) (ptk : Octets lenPtk)
    (keyIv : Octets lenKeyDescIv) (keyData : List UInt8) :
    (cipherKeyData C tx keyDescVer ptk keyIv keyData).length =
      (paddedKeyData keyDescVer keyData).length + if keyDescVer = keyDescAes then 8 else 0 := by
  rw [cipherKeyData, paddedKeyData, htx, htx]
  split
  · rw [if_pos rfl, length_aesKeyWrap]
  · rw [if_pos rfl, length_tkipGtkKeyWrap]
    rfl

/-- **What was enciphered for the frame is deciphered from it**, into the buffer of the receiver. -/
theorem keyDataOf_cipherKeyData (behind : List UInt8) (hC : C.AesInverse) (htx : tx.allocs)
    (hrx : rx.allocs) {bWPA2 : Bool} (hmsg : gtkIncluded bWPA2 msgType) {keyDescVer : BitVec 3}
    (hver : keyDescVer = keyDescAes ∨ keyDescVer = keyDescTkip) {ptk : Octets lenPtk}
    {plain : List UInt8} (hlt : (paddedKeyData keyDescVer plain).length < 400)
    (hmsgVer : pMsg.keyInfo.keyDescVer = keyDescVer)
    (hlen : pMsg.keyDataLen.toNat =
      (cipherKeyData C tx keyDescVer ptk pMsg.keyIv plain).length)
    (hdata : pMsg.keyData = cipherKeyData C tx keyDescVer ptk pMsg.keyIv plain ++ behind) :
    keyDataOf C rx msgType bWPA2 ptk pMsg =
      some (Mem.write (List.replicate maxLenOfRsnie 0 ++ rx.heap) 0 (paddedKeyData keyDescVer plain),
        UInt16.ofNat (paddedKeyData keyDescVer plain).length) := by
  have hcond : (msgType = .pairMsg3 ∧ bWPA2 = true) ∨ msgType = .groupMsg1 := by
    simpa [gtkIncluded, and_comm] using hmsg
  rw [keyDataOf]
  dsimp only
  rw [if_pos hcond, hmsgVer, hlen, hdata]
  rcases hver with rfl | rfl
  · have hsent : cipherKeyData C tx keyDescAes ptk pMsg.keyIv plain =
        aesKeyWrap C (kekOf ptk) (paddedKeyData keyDescAes plain) := by
      rw [cipherKeyData, if_pos rfl, htx, if_pos rfl]
      rfl
    rw [if_pos (.inr rfl), hrx, if_pos rfl, hsent, length_aesKeyWrap,
      aesKeyUnwrap_aesKeyWrap hC _ _ _ (by omega)]
  · have hsent : cipherKeyData C tx keyDescTkip ptk pMsg.keyIv plain =
        tkipGtkKeyWrap (kekOf ptk) pMsg.keyIv plain := by
      rw [cipherKeyData, if_neg (by decide), htx, if_pos rfl]
    have hpadded : paddedKeyData keyDescTkip plain = plain := if_neg (by decide)
    have hback : pMsg.keyDataLen = UInt16.ofNat plain.length := by
      rw [← UInt16.ofNat_toNat (x := pMsg.keyDataLen), hlen, hsent, length_tkipGtkKeyWrap]
    rw [if_neg (by decide), hrx, if_pos rfl, hsent, Mem.read_zero_of_append,
      tkipGtkKeyWrap_tkipGtkKeyWrap, hpadded, hback]

/-! ## 3. What the receiver hands on -/

/-- The key index the parser is told: in WPA it is in the header. -/
def groupKeyIndexOf (ad : Adapter) (pMsg : EapolPacket) (msgType : MsgType) : Nat :=
  if !ad.entry.authMode.bWPA2 ∧ msgType = .groupMsg1 then pMsg.keyInfo.keyIndex.toNat else 0

/-- The frame is accepted, and the parser finds the group key `found` in it. -/
structure Delivers (C : Crypto) (env : Env) (ad : Adapter) (pMsg : EapolPacket) (msgType : MsgType)
    (found : GtkFound) : Prop where
  accepted : (peerWpaMessageSanity C env ad pMsg msgType).failure = none
  parsed : ∃ keyData keyDataLen,
    pMsg.keyDataLen ≠ 0 ∧
    keyDataOf C env msgType ad.entry.authMode.bWPA2 ad.entry.ptk pMsg = some (keyData, keyDataLen) ∧
    gtkOfKeyData keyData keyDataLen.toUInt8.toNat (groupKeyIndexOf ad pMsg msgType)
      ad.entry.authMode.bWPA2 = some found

/-- What a station does with the key it is handed. -/
def installFound (ad : Adapter) (found : GtkFound) : Adapter × List Effect :=
  let gtk := Mem.write ad.staCfg.gtk 0 found.gtk
  let ad := { ad with
    staCfg.gtk := gtk
    staCfg.defaultKeyId := UInt8.ofNat found.defaultIdx }
  wpaInstallSharedKey ad ad.staCfg.groupCipher 0 ad.staCfg.defaultKeyId false gtk found.gtkLen

theorem peerWpaKeyData_of_parsed {ad : Adapter} {found : GtkFound}
    (hmsg : gtkIncluded ad.entry.authMode.bWPA2 msgType) {keyData : List UInt8}
    {keyDataLen : UInt16} (hne : pMsg.keyDataLen ≠ 0)
    (hkeyData : keyDataOf C rx msgType ad.entry.authMode.bWPA2 ad.entry.ptk pMsg =
      some (keyData, keyDataLen))
    (hfound : gtkOfKeyData keyData keyDataLen.toUInt8.toNat (groupKeyIndexOf ad pMsg msgType)
      ad.entry.authMode.bWPA2 = some found)
    (hidx : found.defaultIdx < 4) :
    peerWpaKeyData C rx ad pMsg msgType =
      some (match ad.opMode with | .ap => (ad, []) | .sta => installFound ad found) := by
  have hparsed : ¬ ((msgType = .pairMsg2 ∨ msgType = .pairMsg3) ∧
      ¬ (ad.entry.authMode.bWPA2 = true ∧ msgType = .pairMsg3)) := by
    rintro ⟨rfl | rfl, h⟩
    · simp [gtkIncluded] at hmsg
    · exact h ⟨by simpa [gtkIncluded] using hmsg, rfl⟩
  rw [groupKeyIndexOf] at hfound
  rw [peerWpaKeyData, if_neg hne, hkeyData]
  cases hop : ad.opMode with
  | ap =>
    simp only [rtmpParseEapolKeyData, if_neg hparsed, hfound, hop,
      if_neg (Nat.not_lt.2 (Nat.le_of_lt_succ hidx))]
  | sta =>
    simp only [rtmpParseEapolKeyData, if_neg hparsed, hfound, hop, installFound,
      if_neg (Nat.not_lt.2 (Nat.le_of_lt_succ hidx))]

variable (C groupKeyWepStatus defaultKeyIdx keyNonce txRsc gtk rsnie pMsg) in
/-- What the builder puts into a frame that carries the group key. -/
theorem constructEapolMsg_of_gtkIncluded (htx : tx.allocs)
    (hmsg : gtkIncluded pEntry.authMode.bWPA2 msgType) :
    let keyDescVer := keyDescVerOf pEntry.wepStatus groupKeyWepStatus
    let plain := plainKeyData pEntry.authMode.bWPA2 groupKeyWepStatus msgType defaultKeyIdx gtk
      rsnie.octets
    let msg := constructEapolMsg C tx pEntry groupKeyWepStatus msgType defaultKeyIdx keyNonce txRsc
      gtk rsnie.octets pMsg
    let sent := cipherKeyData C tx keyDescVer pEntry.ptk msg.keyIv plain
    msg.Signed C pEntry.ptk ∧ msg.Sized ∧ msg.replayCounter = pEntry.rCounter ∧
      msg.keyInfo = keyInfoOf pEntry.authMode.bWPA2 keyDescVer msgType defaultKeyIdx pMsg.keyInfo ∧
      msg.keyDataLen.toNat = sent.length ∧ Mem.read msg.keyData 0 sent.length = sent := by
  intro keyDescVer plain msg sent
  set header := constructEapolHeader pEntry groupKeyWepStatus msgType defaultKeyIdx keyNonce txRsc
    pMsg with hheader
  have hne : msgType ≠ .pairMsg1 := by
    rintro rfl
    simp [gtkIncluded] at hmsg
  have hmsgEq : msg = calculateMic C tx keyDescVer pEntry.ptk
      (constructEapolKeyData C tx pEntry groupKeyWepStatus keyDescVer msgType defaultKeyIdx gtk
        rsnie.octets header) := if_pos hne
  rw [constructEapolKeyData_of_gtkIncluded (htx _) hmsg] at hmsgEq
  have hiv : msg.keyIv = header.keyIv := by
    rw [hmsgEq, calculateMic, htx]
    rfl
  have hsent : sent = cipherKeyData C tx keyDescVer pEntry.ptk header.keyIv plain :=
    congrArg (fun iv => cipherKeyData C tx keyDescVer pEntry.ptk iv plain) hiv
  have hlen : sent.length < 500 := by
    have hcipher := length_cipherKeyData (C := C) htx keyDescVer pEntry.ptk msg.keyIv plain
    have hplain : (paddedKeyData keyDescVer plain).length < 400 := length_groupKeyPlain_lt
    have hsplit : sent.length ≤ (paddedKeyData keyDescVer plain).length + 8 := by
      rw [show sent.length = _ from hcipher]
      split <;> omega
    omega
  rw [← hsent] at hmsgEq
  have hmod : (UInt16.ofNat sent.length).toNat = sent.length := by
    rw [UInt16.toNat_ofNat', Nat.mod_eq_of_lt (by omega)]
  refine ⟨?_, ?_, ?_, ?_, ?_, ?_⟩
  · rw [hmsgEq]
    exact signed_calculateMic (htx _) rfl rfl
  · have hbody : msg.bodyLen = UInt16.ofNat minLenOfEapolKeyMsg + UInt16.ofNat sent.length := by
      rw [hmsgEq, calculateMic, htx]
      rfl
    have hdata : msg.keyDataLen = UInt16.ofNat sent.length := by
      rw [hmsgEq, calculateMic, htx]
      rfl
    have hmin : minLenOfEapolKeyMsg = 95 := rfl
    rw [EapolPacket.Sized, hbody, hdata, UInt16.toNat_add, hmod, hmin, UInt16.toNat_ofNat']
    omega
  · rw [hmsgEq, calculateMic, htx]
    rfl
  · rw [hmsgEq, calculateMic, htx]
    rfl
  · rw [hmsgEq, calculateMic, htx]
    exact hmod
  · rw [hmsgEq, calculateMic, htx]
    exact Mem.read_write _ _ _

variable (groupKeyWepStatus defaultKeyIdx keyNonce txRsc gtk rsnie pMsg) in
/-- What the receiver has in `KEYDATA` when it parses the frame, and the length it is told. -/
theorem keyDataOf_constructEapolMsg (hC : C.AesInverse) (htx : tx.allocs) (hrx : rx.allocs)
    (hmsg : gtkIncluded pEntry.authMode.bWPA2 msgType) (behind : List UInt8) :
    let text := groupKeyPlain pEntry groupKeyWepStatus msgType defaultKeyIdx gtk rsnie
    keyDataOf C rx msgType pEntry.authMode.bWPA2 pEntry.ptk
        ((constructEapolMsg C tx pEntry groupKeyWepStatus msgType defaultKeyIdx keyNonce txRsc gtk
          rsnie.octets pMsg).received behind) =
      some (Mem.write (List.replicate maxLenOfRsnie 0 ++ rx.heap) 0 text,
        UInt16.ofNat text.length) ∧
      (UInt16.ofNat text.length).toUInt8.toNat = text.length % 256 := by
  intro text
  obtain ⟨-, -, -, hinfo, hlen, hread⟩ :=
    constructEapolMsg_of_gtkIncluded C groupKeyWepStatus defaultKeyIdx keyNonce txRsc gtk rsnie
      pMsg htx hmsg
  have htext : text.length < 400 := length_groupKeyPlain_lt
  constructor
  · refine keyDataOf_cipherKeyData behind hC htx hrx hmsg (keyDescVerOf_cases _ _) htext
      (congrArg KeyInfo.keyDescVer hinfo) hlen ?_
    rw [EapolPacket.received, hlen, hread]
  · rw [UInt16.toNat_toUInt8, UInt16.toNat_ofNat']
    omega

variable (C groupKeyWepStatus keyNonce txRsc gtk rsnie pMsg) in
/-- The key index the parser is told in WPA is the sender's. -/
theorem groupKeyIndexOf_constructEapolMsg (htx : tx.allocs)
    (hmsg : gtkIncluded pEntry.authMode.bWPA2 msgType) (hidx : defaultKeyIdx < 4) {ad : Adapter}
    (hversion : ad.entry.authMode.bWPA2 = pEntry.authMode.bWPA2) (behind : List UInt8)
    (hwpa1 : pEntry.authMode.bWPA2 = false) :
    groupKeyIndexOf ad ((constructEapolMsg C tx pEntry groupKeyWepStatus msgType defaultKeyIdx
      keyNonce txRsc gtk rsnie.octets pMsg).received behind) msgType = defaultKeyIdx.toNat := by
  obtain ⟨-, -, -, hinfo, -⟩ :=
    constructEapolMsg_of_gtkIncluded C groupKeyWepStatus defaultKeyIdx keyNonce txRsc gtk rsnie
      pMsg htx hmsg
  have hgroup : msgType = .groupMsg1 := by
    rw [hwpa1] at hmsg
    simpa [gtkIncluded] using hmsg
  have hlt : defaultKeyIdx.toNat < 4 := hidx
  have hkeyIndex : (keyInfoOf false (keyDescVerOf pEntry.wepStatus groupKeyWepStatus) .groupMsg1
      defaultKeyIdx pMsg.keyInfo).keyIndex = defaultKeyIdx.toBitVec.setWidth 2 := rfl
  rw [groupKeyIndexOf, hversion, hwpa1, hgroup, if_pos (by decide), ← hgroup,
    EapolPacket.received, hinfo, hgroup, hwpa1, hkeyIndex, BitVec.toNat_setWidth]
  exact Nat.mod_eq_of_lt hlt

section

variable {ad : Adapter} {behind : List UInt8}

/-- **Key data that fits is delivered.** -/
theorem delivers_of_keyDataFits (hC : C.AesInverse) (htx : tx.allocs) (hrx : rx.allocs)
    (hmsg : gtkIncluded pEntry.authMode.bWPA2 msgType) (hidx : defaultKeyIdx < 4)
    (hptk : ad.entry.ptk = pEntry.ptk)
    (hversion : ad.entry.authMode.bWPA2 = pEntry.authMode.bWPA2)
    (hcounter : counterOf ad.entry.rCounter < counterOf pEntry.rCounter)
    (hfit : KeyDataFits pEntry groupKeyWepStatus msgType defaultKeyIdx gtk rsnie) :
    Delivers C rx ad ((constructEapolMsg C tx pEntry groupKeyWepStatus msgType defaultKeyIdx
        keyNonce txRsc gtk rsnie.octets pMsg).received behind) msgType
      ⟨gtkOf groupKeyWepStatus gtk, gtkLenOf groupKeyWepStatus, defaultKeyIdx.toNat⟩ := by
  obtain ⟨hsigned, hsized, hreplay, -, hlen, -⟩ :=
    constructEapolMsg_of_gtkIncluded C groupKeyWepStatus defaultKeyIdx keyNonce txRsc gtk rsnie
      pMsg htx hmsg
  obtain ⟨hkeyData, hoctet⟩ :=
    keyDataOf_constructEapolMsg groupKeyWepStatus defaultKeyIdx keyNonce txRsc gtk rsnie pMsg hC
      htx hrx hmsg behind
  set msg := constructEapolMsg C tx pEntry groupKeyWepStatus msgType defaultKeyIdx keyNonce txRsc
    gtk rsnie.octets pMsg
  have hlt : (groupKeyPlain pEntry groupKeyWepStatus msgType defaultKeyIdx gtk rsnie).length ≤ 255 :=
    hfit
  have hfound := gtkOfKeyData_paddedKeyData rx.heap hmsg hidx rfl hfit
    (groupKeyIndexOf_constructEapolMsg C groupKeyWepStatus keyNonce txRsc gtk rsnie pMsg htx hmsg
      hidx hversion behind)
  rw [← hversion, ← hptk] at hkeyData
  set text := groupKeyPlain pEntry groupKeyWepStatus msgType defaultKeyIdx gtk rsnie with htext
  have hfound' : gtkOfKeyData (Mem.write (List.replicate maxLenOfRsnie 0 ++ rx.heap) 0 text)
      (UInt16.ofNat text.length).toUInt8.toNat (groupKeyIndexOf ad (msg.received behind) msgType)
      ad.entry.authMode.bWPA2 =
        some ⟨gtkOf groupKeyWepStatus gtk, gtkLenOf groupKeyWepStatus, defaultKeyIdx.toNat⟩ := by
    rw [hoctet, Nat.mod_eq_of_lt (Nat.lt_succ_of_le hlt), hversion]
    exact hfound
  have hne : (msg.received behind).keyDataLen ≠ 0 := by
    intro hzero
    have hcipher := length_cipherKeyData (C := C) htx
      (keyDescVerOf pEntry.wepStatus groupKeyWepStatus) pEntry.ptk msg.keyIv
      (plainKeyData pEntry.authMode.bWPA2 groupKeyWepStatus msgType defaultKeyIdx gtk rsnie.octets)
    have hplain := sixteen_le_length_plainKeyData groupKeyWepStatus defaultKeyIdx gtk rsnie hmsg
    have hpadded := (length_le_paddedKeyData (keyDescVerOf pEntry.wepStatus groupKeyWepStatus)
      (plainKeyData pEntry.authMode.bWPA2 groupKeyWepStatus msgType defaultKeyIdx gtk
        rsnie.octets)).1
    have hempty : msg.keyDataLen.toNat = 0 := congrArg UInt16.toNat hzero
    omega
  have hreplayOk : replayOk msgType (msg.received behind).replayCounter ad.entry.rCounter =
      true := by
    have hfrom : msgType = .pairMsg1 ∨ msgType = .pairMsg3 ∨ msgType = .groupMsg1 := by
      have hcases : (msgType = .pairMsg3 ∧ pEntry.authMode.bWPA2 = true) ∨
          msgType = .groupMsg1 := by simpa [gtkIncluded] using hmsg
      exact .inr (hcases.imp_left And.left)
    rw [replayOk, if_pos hfrom, replayOkSupplicant_iff]
    rw [show (msg.received behind).replayCounter = pEntry.rCounter from hreplay]
    exact .inl hcounter
  have hmicOk : micOk C msgType ad.entry.ptk (msg.received behind) = true := by
    rw [hptk]
    exact micOk_of_signed (hsigned.received hsized behind)
  refine ⟨?_, _, _, hne, hkeyData, hfound'⟩
  rw [peerWpaMessageSanity, hrx, hreplayOk, hmicOk,
    peerWpaKeyData_of_parsed (hversion ▸ hmsg) hne hkeyData hfound' hidx]
  rfl

/-- **Key data that does not fit is not**: the parser finds no key in it at all. -/
theorem keyDataFits_of_delivers (hC : C.AesInverse) (htx : tx.allocs) (hrx : rx.allocs)
    (hmsg : gtkIncluded pEntry.authMode.bWPA2 msgType)
    (hptk : ad.entry.ptk = pEntry.ptk)
    (hversion : ad.entry.authMode.bWPA2 = pEntry.authMode.bWPA2)
    (h : Delivers C rx ad ((constructEapolMsg C tx pEntry groupKeyWepStatus msgType defaultKeyIdx
        keyNonce txRsc gtk rsnie.octets pMsg).received behind) msgType
      ⟨gtkOf groupKeyWepStatus gtk, gtkLenOf groupKeyWepStatus, defaultKeyIdx.toNat⟩) :
    KeyDataFits pEntry groupKeyWepStatus msgType defaultKeyIdx gtk rsnie := by
  obtain ⟨hkeyData, hoctet⟩ :=
    keyDataOf_constructEapolMsg groupKeyWepStatus defaultKeyIdx keyNonce txRsc gtk rsnie pMsg hC
      htx hrx hmsg behind
  obtain ⟨keyData, keyDataLen, -, hkeyData', hfound⟩ := h.parsed
  rw [hversion, hptk, hkeyData, Option.some_inj, Prod.mk.injEq] at hkeyData'
  obtain ⟨rfl, rfl⟩ := hkeyData'
  rw [hoctet, hversion] at hfound
  by_contra hlong
  rw [groupKeyPlain, gtkOfKeyData_tooLong hmsg rfl (Nat.lt_of_not_le hlong)] at hfound
  have hnone : 0 = gtkLenOf groupKeyWepStatus := congrArg GtkFound.gtkLen (Option.some.inj hfound)
  have hgtk := gtkLenOf_cases groupKeyWepStatus
  omega

/-- **The group key of the sender is delivered exactly if its key data fits.** -/
theorem groupKey_delivered_iff (hC : C.AesInverse) (htx : tx.allocs) (hrx : rx.allocs)
    (hmsg : gtkIncluded pEntry.authMode.bWPA2 msgType) (hidx : defaultKeyIdx < 4)
    (hptk : ad.entry.ptk = pEntry.ptk)
    (hversion : ad.entry.authMode.bWPA2 = pEntry.authMode.bWPA2)
    (hcounter : counterOf ad.entry.rCounter < counterOf pEntry.rCounter) :
    Delivers C rx ad ((constructEapolMsg C tx pEntry groupKeyWepStatus msgType defaultKeyIdx
        keyNonce txRsc gtk rsnie.octets pMsg).received behind) msgType
      ⟨gtkOf groupKeyWepStatus gtk, gtkLenOf groupKeyWepStatus, defaultKeyIdx.toNat⟩ ↔
    KeyDataFits pEntry groupKeyWepStatus msgType defaultKeyIdx gtk rsnie := by
  constructor
  · exact keyDataFits_of_delivers hC htx hrx hmsg hptk hversion
  · exact delivers_of_keyDataFits hC htx hrx hmsg hidx hptk hversion hcounter

end

end

/-! ## 4. Examples -/

namespace Example

/-- An access point's entry for a station with WPA2-PSK and AES, when it sends message 3. -/
def authenticatorEntry : MacTableEntry where
  authMode := .wpa2Psk
  wepStatus := .encryption3Enabled
  rCounter := counter 2
  ptk := List.Vector.replicate lenPtk 7

/-- The station, with the same key and an older counter. -/
def supplicant : Adapter :=
  { station with
    entry.rCounter := counter 1
    entry.ptk := List.Vector.replicate lenPtk 7 }

/-- Version 1, AES as group and pairwise cipher, and a pre-shared key. -/
def usualRsnIe : RsnIe where
  octets := [1, 0, 0x00, 0x0F, 0xAC, 4, 1, 0, 0x00, 0x0F, 0xAC, 4, 1, 0, 0x00, 0x0F, 0xAC, 2, 0, 0]
  length_le := by decide
  suite := by decide

/-- The same with the pairwise cipher listed 56 times. -/
def longRsnIe : RsnIe where
  octets := [1, 0, 0x00, 0x0F, 0xAC, 4, 56, 0] ++
    (List.replicate 56 [0x00, 0x0F, 0xAC, 4]).flatten ++ [1, 0, 0x00, 0x0F, 0xAC, 2, 0, 0]
  length_le := by decide +kernel
  suite := by decide +kernel

/-- Message 3 with a group key of 16 octets and index 1. -/
def groupKeyMsg3 (C : Crypto) (rsnie : RsnIe) : EapolPacket :=
  constructEapolMsg C plenty authenticatorEntry .encryption3Enabled .pairMsg3 1 (.zero 32) (.zero 6)
    (List.Vector.replicate 32 9) rsnie.octets {}

/-- What the station is to find in it. -/
def groupKeyFound : GtkFound := ⟨List.replicate 16 9, 16, 1⟩

theorem groupKey_delivered_iff_usual :
    Delivers .driver plenty supplicant ((groupKeyMsg3 .driver usualRsnIe).received []) .pairMsg3
      groupKeyFound ↔
    KeyDataFits authenticatorEntry .encryption3Enabled .pairMsg3 1 (List.Vector.replicate 32 9)
      usualRsnIe :=
  groupKey_delivered_iff Crypto.aesInverse_driver (fun _ => rfl) (fun _ => rfl) (by decide)
    (by decide) rfl rfl (by decide)

/-- With the long element the key is not found. -/
theorem not_groupKey_delivered :
    ¬ ∃ C : Crypto, C.AesInverse ∧
      Delivers C plenty supplicant ((groupKeyMsg3 C longRsnIe).received []) .pairMsg3
        groupKeyFound := by
  rintro ⟨C, hC, h⟩
  have hfit : KeyDataFits authenticatorEntry .encryption3Enabled .pairMsg3 1
      (List.Vector.replicate 32 9) longRsnIe :=
    keyDataFits_of_delivers hC (fun _ => rfl) (fun _ => rfl) (by decide) rfl rfl h
  exact absurd hfit (by rw [KeyDataFits]; decide +kernel)

end Example

end Mt7601.Wpa
