/-
# Where `WpaEAPOLKeyAction` stays inside the frame

The function and the handlers it gives a frame to, with every read of the frame and every copy into
a buffer of fixed size checked. The body length of the packet is compared with the frame's length
before a handler is called, the length of the key data with nothing: they are copied, or deciphered,
into the 255 octets of `KEYDATA`, and `AES_Key_Unwrap` takes eight from it. The fields of the header
are read first of all, and the group key handler has no look at the frame's length.

What is not stopped comes to what the handlers come to (`checkedWpaEapolKeyAction_guarded`).
-/
import Mt7601.Wpa.ElementUnverified
import Mt7601.Wpa.KeyDataBounds

namespace Mt7601.Wpa

open Checked

/-! ## 1. The fields of the packet -/

/-- `Addr2` in the 802.11 header. -/
def addr2At : Nat := 10

/-- The offsets of the fields in `EAPOL_PACKET`. -/
def bodyLenAt : Nat := 2
def keyInfoAt : Nat := 5
def replayCounterAt : Nat := 9
def keyNonceAt : Nat := 17
def keyIvAt : Nat := 49
def keyMicAt : Nat := 81
def keyDataLenAt : Nat := 97
def keyDataAt : Nat := 99

/-- A look at `n` octets of the packet from an offset on; it lies behind the 802.11 header and the
LLC octets. -/
def Elem.looksAt (elem : Elem) (off n : Nat) : Checked Unit :=
  access elem.msgLen.toNat (length80211 + length8021H + off) n

/-- A look that is taken in one case only. -/
def Elem.looksIf (elem : Elem) (c : Bool) (off n : Nat) : Checked Unit :=
  if c then elem.looksAt off n else .ok ()

/-- How many octets `RTMPCompareMemory` looks at: it stops behind the first that differs. -/
def comparedOctets : List UInt8 → List UInt8 → Nat
  | a :: as, b :: bs => if a = b then comparedOctets as bs + 1 else 1
  | _, _ => 0

/-- How much of the replay counter the first check looks at. -/
def replayOctets (msgType : MsgType) (received stored : Octets lenKeyDescReplay) : Nat :=
  if msgType = .pairMsg1 ∨ msgType = .pairMsg3 ∨ msgType = .groupMsg1 then
    if rtmpCompareMemory received.toList stored.toList = 1 then
      comparedOctets received.toList stored.toList
    else
      max (comparedOctets received.toList stored.toList)
        (comparedOctets received.toList (Octets.zero lenKeyDescReplay).toList)
  else lenKeyDescReplay

/-! ## 2. `PeerWpaMessageSanity` -/

/-- How many octets of the packet the code is computed over: a descriptor version that has no code
computes none. -/
def micOctets (pMsg : EapolPacket) : Nat :=
  if pMsg.keyInfo.keyDescVer = keyDescTkip ∨ pMsg.keyInfo.keyDescVer = keyDescAes ∨
      pMsg.keyInfo.keyDescVer = keyDescExt then
    pMsg.bodyLen.toNat + lengthEapolH
  else 0

/-- The second check. -/
def checkedMicOk (C : Crypto) (elem : Elem) (msgType : MsgType) (ptk : Octets lenPtk) :
    Checked Bool :=
  if msgType = .pairMsg1 then .ok true
  else do
    elem.looksAt bodyLenAt 2
    elem.looksAt keyMicAt lenKeyDescMic
    elem.looksAt 0 (micOctets elem.pkt)
    return micOk C msgType ptk elem.pkt

/-- `AES_Key_Unwrap` into `KEYDATA`: the length of the plain text, and the integrity value and the
blocks, if there is memory for them. -/
def checkedUnwrap (C : Crypto) (env : Env) (elem : Elem) (ptk : Octets lenPtk) :
    Checked (List UInt8 × UInt16) := do
  let buffer := List.replicate maxLenOfRsnie 0
  let plainLength ← sub elem.pkt.keyDataLen.toNat 8
  if env.alloc .unwrap then
    elem.looksAt keyDataAt (8 + plainLength)
    access maxLenOfRsnie 0 plainLength
    let plain := aesKeyUnwrap C (kekOf ptk) elem.pkt.keyData elem.pkt.keyDataLen.toNat
    return (Mem.write buffer 0 plain, UInt16.ofNat plain.length)
  else return (buffer, 0)

/-- `TKIP_GTK_KEY_UNWRAP` into `KEYDATA`. -/
def checkedTkipUnwrap (env : Env) (elem : Elem) (ptk : Octets lenPtk) :
    Checked (List UInt8 × UInt16) := do
  let pMsg := elem.pkt
  let buffer := List.replicate maxLenOfRsnie 0
  if env.alloc .arc4 then
    elem.looksAt keyIvAt lenKeyDescIv
    elem.looksAt keyDataAt pMsg.keyDataLen.toNat
    access maxLenOfRsnie 0 pMsg.keyDataLen.toNat
    return (Mem.write buffer 0
      (tkipGtkKeyWrap (kekOf ptk) pMsg.keyIv (Mem.read pMsg.keyData 0 pMsg.keyDataLen.toNat)),
      pMsg.keyDataLen)
  else return (buffer, pMsg.keyDataLen)

/-- The copy of key data that are in the clear. -/
def checkedCopy (elem : Elem) : Checked (List UInt8 × UInt16) := do
  elem.looksAt keyDataAt elem.pkt.keyDataLen.toNat
  access maxLenOfRsnie 0 elem.pkt.keyDataLen.toNat
  return (Mem.write (List.replicate maxLenOfRsnie 0) 0
    (Mem.read elem.pkt.keyData 0 elem.pkt.keyDataLen.toNat), elem.pkt.keyDataLen)

/-- `KEYDATA`, all of it, when the parser is called, and the length it is told. -/
def checkedKeyDataOf (C : Crypto) (env : Env) (elem : Elem) (msgType : MsgType) (bWPA2 : Bool)
    (ptk : Octets lenPtk) : Checked (Option (List UInt8 × UInt16)) :=
  let keyDescVer := elem.pkt.keyInfo.keyDescVer
  if (msgType = .pairMsg3 ∧ bWPA2) ∨ msgType = .groupMsg1 then
    if keyDescVer = keyDescExt ∨ keyDescVer = keyDescAes then
      checkedUnwrap C env elem ptk >>= fun d => .ok (some d)
    else checkedTkipUnwrap env elem ptk >>= fun d => .ok (some d)
  else if msgType = .pairMsg2 ∨ (msgType = .pairMsg3 ∧ !bWPA2) then
    checkedCopy elem >>= fun d => .ok (some d)
  else .ok none

/-- The parser, if there is something for it. -/
def checkedParseFound (ad : Adapter) (groupKeyIndex : Nat) (msgType : MsgType) (bWPA2 : Bool) :
    Option (List UInt8 × UInt16) → Checked (Option (Adapter × List Effect))
  | none => .ok (some (ad, []))
  | some d => checkedParseKeyData ad d.1 d.2.toUInt8 groupKeyIndex msgType bWPA2

/-- The third part. -/
def checkedPeerWpaKeyData (C : Crypto) (env : Env) (ad : Adapter) (elem : Elem)
    (msgType : MsgType) : Checked (Option (Adapter × List Effect)) := do
  let bWPA2 := ad.entry.authMode.bWPA2
  elem.looksAt keyDataLenAt 2
  if elem.pkt.keyDataLen = 0 then return some (ad, [])
  let found ← checkedKeyDataOf C env elem msgType bWPA2 ad.entry.ptk
  checkedParseFound ad
    (if !bWPA2 ∧ msgType = .groupMsg1 then elem.pkt.keyInfo.keyIndex.toNat else 0) msgType bWPA2
    found

/-- `PeerWpaMessageSanity` -/
def checkedPeerWpaMessageSanity (C : Crypto) (env : Env) (ad : Adapter) (elem : Elem)
    (msgType : MsgType) : Checked Sanity := do
  if !env.alloc .keyData then return { ad, failure := some .noKeyDataBuffer }
  elem.looksAt keyInfoAt 2
  elem.looksAt replayCounterAt
    (replayOctets msgType elem.pkt.replayCounter ad.entry.rCounter)
  if !replayOk msgType elem.pkt.replayCounter ad.entry.rCounter then
    return { ad, failure := some .replayCounter, out := [.replayCounterDiff] }
  let same ← checkedMicOk C elem msgType ad.entry.ptk
  if !same then return { ad, failure := some .mic, out := [.micDiff] }
  let parsed ← checkedPeerWpaKeyData C env ad elem msgType
  return match parsed with
    | none => { ad, failure := some .keyData }
    | some (ad, out) => { ad, out }

/-! ## 3. The handlers -/

/-- The check of a frame and what its handler then reads: `n` octets from the replay counter on. -/
def checkedPass (C : Crypto) (env : Env) (ad : Adapter) (elem : Elem) (msgType : MsgType) (n : Nat)
    (handle : Adapter → Outcome) : Checked Outcome := do
  let s ← checkedPeerWpaMessageSanity C env ad elem msgType
  elem.looksIf (s.failure = none) replayCounterAt n
  return s.andThen handle

/-- `PeerPairMsg1Action`: the replay counter and the nonce are stored. -/
def checkedPairMsg1 (C : Crypto) (env : Env) (ad : Adapter) (elem : Elem) : Checked Outcome :=
  if !ad.entry.entryClient then .ok { ad }
  else if elem.tooShort then .ok { ad }
  else
    match ad.opMode with
    | .ap => .ok { ad }
    | .sta =>
      checkedPass C env ad elem .pairMsg1 (lenKeyDescReplay + lenKeyDescNonce)
        (pairMsg1Passed C env elem.pkt)

/-- `PeerPairMsg3Action`: the replay counter is stored, the nonce compared. -/
def checkedPairMsg3 (C : Crypto) (env : Env) (ad : Adapter) (elem : Elem) : Checked Outcome :=
  if !ad.entry.entryClient then .ok { ad }
  else if elem.tooShort then .ok { ad }
  else
    match ad.opMode with
    | .ap => .ok { ad }
    | .sta =>
      checkedPass C env ad elem .pairMsg3 (lenKeyDescReplay + lenKeyDescNonce)
        (pairMsg3Passed C env elem.pkt)

/-- `PeerGroupMsg1Action` -/
def checkedGroupMsg1 (C : Crypto) (env : Env) (ad : Adapter) (elem : Elem) : Checked Outcome :=
  if !ad.entry.entryClient then .ok { ad }
  else
    match ad.opMode with
    | .ap => .ok { ad }
    | .sta =>
      checkedPass C env ad elem .groupMsg1 lenKeyDescReplay
        (groupMsg1Passed C env ad.staCfg.defaultKeyId elem.pkt)

/-- `PeerPairMsg2Action`: the nonce is stored before the frame is checked. -/
def checkedPairMsg2 (C : Crypto) (env : Env) (ad : Adapter) (elem : Elem) : Checked Outcome :=
  if !ad.entry.entryClient then .ok { ad }
  else if elem.tooShort then .ok { ad }
  else if ad.entry.wpaState < .ptkStart then .ok { ad }
  else
    match ad.opMode with
    | .sta => do
      elem.looksAt keyNonceAt lenKeyDescNonce
      return { ad := { ad with entry.sNonce := elem.pkt.keyNonce } }
    | .ap =>
      if ad.bssidNum ≤ ad.entry.apidx then .ok { ad }
      else do
        elem.looksAt keyNonceAt lenKeyDescNonce
        checkedPass C env (adOfMsg2 C env ad elem.pkt) elem .pairMsg2 0 (pairMsg2Passed C env)

/-- `PeerPairMsg4Action` -/
def checkedPairMsg4 (C : Crypto) (env : Env) (ad : Adapter) (elem : Elem) : Checked Outcome :=
  if !ad.entry.entryClient then .ok { ad }
  else if elem.tooShort then .ok { ad }
  else if ad.entry.wpaState < .ptkInitNegotiating then .ok { ad }
  else if ad.opMode = .ap ∧ ad.bssidNum ≤ ad.entry.apidx then .ok { ad }
  else checkedPass C env ad elem .pairMsg4 0 (pairMsg4Passed C env)

/-- `PeerGroupMsg2Action` -/
def checkedGroupMsg2 (C : Crypto) (env : Env) (ad : Adapter) (elem : Elem) : Checked Outcome :=
  if !ad.entry.entryClient then .ok { ad }
  else if (elem.msgLen - 24).toUInt32.toNat < length8021H + lengthEapolH + minLenOfEapolKeyMsg then
    .ok { ad }
  else if ad.entry.wpaState ≠ .ptkInitDone then .ok { ad }
  else if ad.opMode = .ap ∧ ad.bssidNum ≤ ad.entry.apidx then .ok { ad }
  else checkedPass C env ad elem .groupMsg2 0 groupMsg2Passed

/-- The branches of `WpaEAPOLKeyAction`; a failure report and the requests look at no more. -/
def Handler.checkedRun (C : Crypto) (env : Env) (ad : Adapter) (elem : Elem) :
    Handler → Checked Outcome
  | .pairMsg1 => checkedPairMsg1 C env ad elem
  | .pairMsg2 => checkedPairMsg2 C env ad elem
  | .pairMsg3 => checkedPairMsg3 C env ad elem
  | .pairMsg4 => checkedPairMsg4 C env ad elem
  | .groupMsg1 => checkedGroupMsg1 C env ad elem
  | .groupMsg2 => checkedGroupMsg2 C env ad elem
  | h => .ok (h.run C env ad elem)

/-- The branch that tells message 2 from message 4 by the length of the key data. -/
def readsKeyDataLen (info : KeyInfo) : Bool :=
  !info.keyAck ∧ !info.request ∧ !info.error ∧ info.keyMic ∧ !info.secure ∧
    info.keyType = pairwiseKeyType

/-- `WpaEAPOLKeyAction`. `ProVer` and `Type` lie before the octets that have been read by then. -/
def checkedWpaEapolKeyAction (C : Crypto) (env : Env) (ad : Adapter) (elem : Elem) :
    Checked Outcome := do
  elem.looksAt bodyLenAt 2
  elem.looksAt keyInfoAt 2
  access elem.msgLen.toNat addr2At 6
  if !wpaEapolKeyAdmits ad elem then return { ad }
  elem.looksIf (readsKeyDataLen elem.pkt.keyInfo) keyDataLenAt 2
  match handlerOf ad elem with
  | none => return { ad }
  | some h => h.checkedRun C env ad elem

/-! ## 4. The parser in `KEYDATA` -/

/-- The walk over the elements of `KEYDATA` stays inside, and a group key inside `GTK`. -/
def ParserInside (msgType : MsgType) (bWPA2 : Bool) : Option (List UInt8 × UInt16) → Prop
  | none => True
  | some d =>
    if bWPA2 ∧ (msgType = .pairMsg3 ∨ msgType = .groupMsg1) then
      (∀ p ∈ kdeWalk d.1 d.2.toUInt8.toNat 0, KdeFits d.1 p) ∧
        ((∃ p ∈ kdeWalk d.1 d.2.toUInt8.toNat 0, IsShortGtk d.1 p) ∨
          kdeEnd d.1 d.2.toUInt8.toNat 0 + 2 ≤ d.1.length)
    else if !bWPA2 ∧ msgType = .groupMsg1 then d.2.toUInt8.toNat ≤ maxLenGtk
    else True

section

variable {C : Crypto} {env : Env} {ad : Adapter} {elem : Elem} {msgType : MsgType} {bWPA2 : Bool}
  {ptk : Octets lenPtk}

theorem looksAt_guarded (elem : Elem) (off n : Nat) :
    Guarded (elem.looksAt off n) (length80211 + length8021H + off + n ≤ elem.msgLen.toNat)
      fun _ => True :=
  .access _ _ _

theorem looksIf_guarded (elem : Elem) (c : Bool) (off n : Nat) :
    Guarded (elem.looksIf c off n)
      (c = true → length80211 + length8021H + off + n ≤ elem.msgLen.toNat) fun _ => True := by
  cases c with
  | false => exact Guarded.congr (.ok trivial) (iff_of_true trivial fun h => by cases h)
  | true => exact (looksAt_guarded elem off n).congr (imp_iff_right rfl).symm

theorem looksAt_ok {off n : Nat} (h : length80211 + length8021H + off + n ≤ elem.msgLen.toNat) :
    elem.looksAt off n = .ok () :=
  access_ok h

/-- The messages whose key data are parsed. -/
def IsParsed (msgType : MsgType) : Prop :=
  msgType = .pairMsg2 ∨ msgType = .pairMsg3 ∨ msgType = .groupMsg1

theorem checkedParseFound_guarded {keyData : List UInt8} {keyDataLen : UInt16}
    {groupKeyIndex : Nat} (hmsg : IsParsed msgType) (hlen : keyData.length = maxLenOfRsnie) :
    Guarded (checkedParseFound ad groupKeyIndex msgType bWPA2 (some (keyData, keyDataLen)))
      (ParserInside msgType bWPA2 (some (keyData, keyDataLen)))
      fun r => ∀ behind, rtmpParseEapolKeyData ad (keyData ++ behind) keyDataLen.toUInt8
        groupKeyIndex msgType bWPA2 = r := by
  have hle : keyDataLen.toUInt8.toNat ≤ keyData.length := by
    have hlt := keyDataLen.toUInt8.toNat_lt
    rw [hlen, maxLenOfRsnie]
    omega
  refine ⟨?_, fun r hr behind => rtmpParseEapolKeyData_of_checkedIn hle behind hmsg hr⟩
  rw [checkedParseFound, checkedParseKeyData, ParserInside]
  dsimp only
  by_cases hkde : bWPA2 = true ∧ (msgType = .pairMsg3 ∨ msgType = .groupMsg1)
  · have hclear : ¬ ((msgType = .pairMsg2 ∨ msgType = .pairMsg3) ∧
        ¬ (bWPA2 = true ∧ msgType = .pairMsg3)) := by
      rintro ⟨h | h, hno⟩
      · rcases hkde.2 with h3 | h1
        · cases h.symm.trans h3
        · cases h.symm.trans h1
      · exact hno ⟨hkde.1, h⟩
    have hguard : Guarded (checkedParseKde keyData keyDataLen.toUInt8.toNat 0 {}) _ _ :=
      checkedParseKde_guarded hle
    rw [if_neg hclear, if_pos hkde, checkedGtk, if_pos hkde, ← hguard.safe]
    cases checkedParseKde keyData keyDataLen.toUInt8.toNat 0 {} with
    | error e => exact iff_of_false (not_safe_error e) (not_safe_error e)
    | ok o =>
      cases o with
      | none => exact iff_of_true (safe_ok _) (safe_ok _)
      | some found => exact iff_of_true (safe_ok _) (safe_ok _)
  · rw [if_neg hkde]
    by_cases hplain : (!bWPA2) = true ∧ msgType = .groupMsg1
    · obtain ⟨hfalse, rfl⟩ := hplain
      obtain rfl : bWPA2 = false := by simpa using hfalse
      rw [if_neg (by decide), if_pos ⟨rfl, rfl⟩, checkedGtk_plain hle, ← Nat.zero_add
        keyDataLen.toUInt8.toNat, ← safe_access, Nat.zero_add]
      cases access maxLenGtk 0 keyDataLen.toUInt8.toNat with
      | error e => exact iff_of_false (not_safe_error e) (not_safe_error e)
      | ok u => exact iff_of_true (safe_ok _) (safe_ok _)
    · rw [if_neg hplain]
      refine iff_of_true ?_ trivial
      by_cases hclear : (msgType = .pairMsg2 ∨ msgType = .pairMsg3) ∧
          ¬ (bWPA2 = true ∧ msgType = .pairMsg3)
      · rw [if_pos hclear]
        exact safe_ok _
      · rw [if_neg hclear, checkedGtk, if_neg hkde, if_neg hplain]
        exact safe_ok _

/-! ## 5. The key data -/

/-- The key data lie in the frame, and what becomes of them in `KEYDATA`. -/
def Elem.KeyDataFit (elem : Elem) (plainLength : Nat) : Prop :=
  length80211 + length8021H + keyDataAt + elem.pkt.keyDataLen.toNat ≤ elem.msgLen.toNat ∧
    plainLength ≤ maxLenOfRsnie

/-- How `KEYDATA` is filled: deciphered key data of AES hold at least the eight octets of the
integrity value. -/
def CopyInside (env : Env) (elem : Elem) (msgType : MsgType) (bWPA2 : Bool) : Prop :=
  let keyDescVer := elem.pkt.keyInfo.keyDescVer
  let keyDataLen := elem.pkt.keyDataLen.toNat
  if (msgType = .pairMsg3 ∧ bWPA2) ∨ msgType = .groupMsg1 then
    if keyDescVer = keyDescExt ∨ keyDescVer = keyDescAes then
      8 ≤ keyDataLen ∧ (env.alloc .unwrap → elem.KeyDataFit (keyDataLen - 8))
    else env.alloc .arc4 → elem.KeyDataFit keyDataLen
  else if msgType = .pairMsg2 ∨ (msgType = .pairMsg3 ∧ !bWPA2) then elem.KeyDataFit keyDataLen
  else True

/-- The same step with other memory behind its buffer. -/
def Env.withHeap (env : Env) (heap : List UInt8) : Env := { env with heap }

/-- **The key data fit**: where they are filled in, and where they are then parsed. -/
def KeyDataBounded (C : Crypto) (env : Env) (elem : Elem) (msgType : MsgType) (bWPA2 : Bool)
    (ptk : Octets lenPtk) : Prop :=
  CopyInside env elem msgType bWPA2 ∧
    ParserInside msgType bWPA2 (keyDataOf C (env.withHeap []) msgType bWPA2 ptk elem.pkt)

/-- What `KEYDATA` holds, with any memory behind it. -/
def Fills (C : Crypto) (env : Env) (elem : Elem) (msgType : MsgType) (bWPA2 : Bool)
    (ptk : Octets lenPtk) (d : List UInt8 × UInt16) : Prop :=
  d.1.length = maxLenOfRsnie ∧ ∀ heap, keyDataOf C (env.withHeap heap) msgType bWPA2 ptk elem.pkt =
    some (d.1 ++ heap, d.2)

/-- A copy into a buffer with anything behind it. -/
theorem write_buffer_append {l : List UInt8} (h : l.length ≤ maxLenOfRsnie) (heap : List UInt8) :
    Mem.write (List.replicate maxLenOfRsnie 0 ++ heap) 0 l =
      Mem.write (List.replicate maxLenOfRsnie 0) 0 l ++ heap := by
  rw [write_zero, write_zero, List.drop_append_of_le_length (by simpa using h), List.append_assoc]

theorem length_write_buffer {l : List UInt8} (h : l.length ≤ maxLenOfRsnie) :
    (Mem.write (List.replicate maxLenOfRsnie 0) 0 l).length = maxLenOfRsnie := by
  rw [Mem.length_write (by simpa using h), List.length_replicate]

theorem checkedUnwrap_guarded (hmsg : (msgType = .pairMsg3 ∧ bWPA2) ∨ msgType = .groupMsg1)
    (hver : elem.pkt.keyInfo.keyDescVer = keyDescExt ∨ elem.pkt.keyInfo.keyDescVer = keyDescAes) :
    Guarded (checkedUnwrap C env elem ptk)
      (8 ≤ elem.pkt.keyDataLen.toNat ∧
        (env.alloc .unwrap → elem.KeyDataFit (elem.pkt.keyDataLen.toNat - 8)))
      (Fills C env elem msgType bWPA2 ptk) := by
  have hlt := elem.pkt.keyDataLen.toNat_lt
  have hlen := length_aesKeyUnwrap (C := C) (kekOf ptk) elem.pkt.keyData elem.pkt.keyDataLen.toNat
  have hfills : ∀ heap, keyDataOf C (env.withHeap heap) msgType bWPA2 ptk elem.pkt =
      if env.alloc .unwrap then
        some (Mem.write (List.replicate maxLenOfRsnie 0 ++ heap) 0
            (aesKeyUnwrap C (kekOf ptk) elem.pkt.keyData elem.pkt.keyDataLen.toNat),
          UInt16.ofNat
            (aesKeyUnwrap C (kekOf ptk) elem.pkt.keyData elem.pkt.keyDataLen.toNat).length)
      else some (List.replicate maxLenOfRsnie 0 ++ heap, 0) := by
    intro heap
    rw [keyDataOf]
    dsimp only
    rw [if_pos hmsg, if_pos hver]
    rfl
  rw [unwrapLength] at hlen
  refine (Guarded.sub _ _).keep.bind fun n hn => ?_
  obtain ⟨height, rfl⟩ := hn
  by_cases halloc : env.alloc .unwrap = true
  · rw [if_pos halloc, imp_iff_right halloc]
    refine ((looksAt_guarded elem _ _).bind fun _ _ =>
      (Guarded.access _ _ _).keep.map fun _ hcopy => ?_).congr ?_
    · have hfit : (aesKeyUnwrap C (kekOf ptk) elem.pkt.keyData
          elem.pkt.keyDataLen.toNat).length ≤ maxLenOfRsnie := by omega
      refine ⟨length_write_buffer hfit, fun heap => ?_⟩
      rw [hfills heap, if_pos halloc, write_buffer_append hfit]
    · rw [Elem.KeyDataFit]
      omega
  · rw [if_neg halloc]
    refine (Guarded.ok ⟨by simp, fun heap => ?_⟩).congr (iff_of_true trivial fun h => absurd h halloc)
    rw [hfills heap, if_neg halloc]

theorem checkedTkipUnwrap_guarded (hmsg : (msgType = .pairMsg3 ∧ bWPA2) ∨ msgType = .groupMsg1)
    (hver : ¬ (elem.pkt.keyInfo.keyDescVer = keyDescExt ∨
      elem.pkt.keyInfo.keyDescVer = keyDescAes)) :
    Guarded (checkedTkipUnwrap env elem ptk)
      (env.alloc .arc4 → elem.KeyDataFit elem.pkt.keyDataLen.toNat)
      (Fills C env elem msgType bWPA2 ptk) := by
  have hlen : (tkipGtkKeyWrap (kekOf ptk) elem.pkt.keyIv
      (Mem.read elem.pkt.keyData 0 elem.pkt.keyDataLen.toNat)).length =
        elem.pkt.keyDataLen.toNat := by
    rw [length_tkipGtkKeyWrap, Mem.length_read]
  have hfills : ∀ heap, keyDataOf C (env.withHeap heap) msgType bWPA2 ptk elem.pkt =
      if env.alloc .arc4 then
        some (Mem.write (List.replicate maxLenOfRsnie 0 ++ heap) 0
            (tkipGtkKeyWrap (kekOf ptk) elem.pkt.keyIv
              (Mem.read elem.pkt.keyData 0 elem.pkt.keyDataLen.toNat)), elem.pkt.keyDataLen)
      else some (List.replicate maxLenOfRsnie 0 ++ heap, elem.pkt.keyDataLen) := by
    intro heap
    rw [keyDataOf]
    dsimp only
    rw [if_pos hmsg, if_neg hver]
    rfl
  rw [checkedTkipUnwrap]
  by_cases halloc : env.alloc .arc4 = true
  · rw [if_pos halloc, imp_iff_right halloc]
    refine ((looksAt_guarded elem _ _).bind fun _ _ => (looksAt_guarded elem _ _).bind fun _ _ =>
      (Guarded.access _ _ _).keep.map fun _ hcopy => ?_).congr ?_
    · have hfit : (tkipGtkKeyWrap (kekOf ptk) elem.pkt.keyIv
          (Mem.read elem.pkt.keyData 0 elem.pkt.keyDataLen.toNat)).length ≤ maxLenOfRsnie := by
        omega
      refine ⟨length_write_buffer hfit, fun heap => ?_⟩
      rw [hfills heap, if_pos halloc, write_buffer_append hfit]
    · rw [Elem.KeyDataFit, keyIvAt, keyDataAt, lenKeyDescIv]
      omega
  · rw [if_neg halloc]
    refine (Guarded.ok ⟨by simp, fun heap => ?_⟩).congr (iff_of_true trivial fun h => absurd h halloc)
    rw [hfills heap, if_neg halloc]

theorem checkedCopy_guarded (hmsg : ¬ ((msgType = .pairMsg3 ∧ bWPA2) ∨ msgType = .groupMsg1))
    (hclear : msgType = .pairMsg2 ∨ (msgType = .pairMsg3 ∧ !bWPA2)) :
    Guarded (checkedCopy elem) (elem.KeyDataFit elem.pkt.keyDataLen.toNat)
      (Fills C env elem msgType bWPA2 ptk) := by
  refine ((looksAt_guarded elem _ _).bind fun _ _ =>
    (Guarded.access _ _ _).keep.map fun _ hcopy => ?_).congr ?_
  · have hfit : (Mem.read elem.pkt.keyData 0 elem.pkt.keyDataLen.toNat).length ≤ maxLenOfRsnie := by
      rw [Mem.length_read]
      omega
    refine ⟨length_write_buffer hfit, fun heap => ?_⟩
    rw [keyDataOf]
    dsimp only
    rw [if_neg hmsg, if_pos hclear]
    exact congrArg (fun l => some (l, elem.pkt.keyDataLen)) (write_buffer_append hfit heap)
  · rw [Elem.KeyDataFit]
    omega

/-- **`KEYDATA` is filled from inside the frame, and to its end at most.** -/
theorem checkedKeyDataOf_guarded (C : Crypto) (env : Env) (elem : Elem) (msgType : MsgType)
    (bWPA2 : Bool) (ptk : Octets lenPtk) :
    Guarded (checkedKeyDataOf C env elem msgType bWPA2 ptk) (CopyInside env elem msgType bWPA2)
      fun o =>
        (o = none ∧ ∀ heap, keyDataOf C (env.withHeap heap) msgType bWPA2 ptk elem.pkt = none) ∨
        (IsParsed msgType ∧ ∃ d, o = some d ∧ Fills C env elem msgType bWPA2 ptk d) := by
  rw [checkedKeyDataOf, CopyInside]
  refine .ite (fun hmsg => .ite (fun hver => ?_) fun hver => ?_) fun hmsg =>
    .ite (fun hclear => ?_) fun hclear => ?_
  · have hparsed : IsParsed msgType := hmsg.elim (fun h => .inr (.inl h.1)) fun h => .inr (.inr h)
    exact (checkedUnwrap_guarded hmsg hver).map fun d hd => .inr ⟨hparsed, d, rfl, hd⟩
  · have hparsed : IsParsed msgType := hmsg.elim (fun h => .inr (.inl h.1)) fun h => .inr (.inr h)
    exact (checkedTkipUnwrap_guarded hmsg hver).map fun d hd => .inr ⟨hparsed, d, rfl, hd⟩
  · have hparsed : IsParsed msgType := hclear.elim .inl fun h => .inr (.inl h.1)
    exact (checkedCopy_guarded hmsg hclear).map fun d hd => .inr ⟨hparsed, d, rfl, hd⟩
  · refine .ok (.inl ⟨rfl, fun heap => ?_⟩)
    rw [keyDataOf]
    dsimp only
    rw [if_neg hmsg, if_neg hclear]

/-- **The third part**: the length of the key data is read, and key data that there are fit. -/
theorem checkedPeerWpaKeyData_guarded (C : Crypto) (env : Env) (ad : Adapter) (elem : Elem)
    (msgType : MsgType) :
    Guarded (checkedPeerWpaKeyData C env ad elem msgType)
      (length80211 + length8021H + keyDataAt ≤ elem.msgLen.toNat ∧
        (elem.pkt.keyDataLen ≠ 0 →
          KeyDataBounded C env elem msgType ad.entry.authMode.bWPA2 ad.entry.ptk))
      (· = peerWpaKeyData C env ad elem.pkt msgType) := by
  rw [checkedPeerWpaKeyData, peerWpaKeyData]
  refine (looksAt_guarded elem _ _).bind fun _ _ => ?_
  by_cases hnone : elem.pkt.keyDataLen = 0
  · rw [if_pos hnone, if_pos hnone]
    have hend : Guarded (.ok (some (ad, [])) : Checked (Option (Adapter × List Effect))) True
        (· = some (ad, [])) := .ok rfl
    exact hend.congr (iff_of_true trivial fun h => absurd hnone h)
  · rw [if_neg hnone, if_neg hnone, imp_iff_right hnone]
    refine (checkedKeyDataOf_guarded C env elem msgType _ ad.entry.ptk).bind fun o ho => ?_
    obtain ⟨rfl, hfound⟩ | ⟨hparsed, d, rfl, hlen, hfills⟩ := ho
    · have hheap : keyDataOf C env msgType ad.entry.authMode.bWPA2 ad.entry.ptk elem.pkt = none :=
        hfound env.heap
      have hend : Guarded (.ok (some (ad, [])) : Checked (Option (Adapter × List Effect))) True
          (· = some (ad, [])) := .ok rfl
      rw [hheap, hfound []]
      exact hend
    · have hheap : keyDataOf C env msgType ad.entry.authMode.bWPA2 ad.entry.ptk elem.pkt =
          some (d.1 ++ env.heap, d.2) := hfills env.heap
      rw [hheap, hfills [], List.append_nil]
      refine (checkedParseFound_guarded hparsed hlen).imp fun r hr => ?_
      exact (hr env.heap).symm

/-! ## 6. The checks -/

/-- **The frame can be checked**: where there is memory, the replay counter can be compared, the code
of a frame with the right counter computed, and of a frame with the right code the key data fit. -/
def SanityInside (C : Crypto) (env : Env) (ad : Adapter) (elem : Elem) (msgType : MsgType) : Prop :=
  let pMsg := elem.pkt
  let packet := length80211 + length8021H
  env.alloc .keyData →
    packet + keyInfoAt + 2 ≤ elem.msgLen.toNat ∧
    packet + replayCounterAt + replayOctets msgType pMsg.replayCounter ad.entry.rCounter ≤
      elem.msgLen.toNat ∧
    (replayOk msgType pMsg.replayCounter ad.entry.rCounter →
      (msgType ≠ .pairMsg1 → packet + keyMicAt + lenKeyDescMic ≤ elem.msgLen.toNat) ∧
      (micOk C msgType ad.entry.ptk pMsg →
        packet + keyDataAt ≤ elem.msgLen.toNat ∧
        (pMsg.keyDataLen ≠ 0 →
          KeyDataBounded C env elem msgType ad.entry.authMode.bWPA2 ad.entry.ptk)))

/-- `WpaEAPOLKeyAction` has compared the body length with the frame's. -/
def Elem.BodyInside (elem : Elem) : Prop :=
  length80211 + length8021H + (elem.pkt.bodyLen.toNat + lengthEapolH) ≤ elem.msgLen.toNat

theorem checkedMicOk_guarded (hbody : elem.BodyInside) :
    Guarded (checkedMicOk C elem msgType ptk)
      (msgType ≠ .pairMsg1 →
        length80211 + length8021H + keyMicAt + lenKeyDescMic ≤ elem.msgLen.toNat)
      (· = micOk C msgType ptk elem.pkt) := by
  rw [Elem.BodyInside] at hbody
  rw [checkedMicOk]
  by_cases hfirst : msgType = .pairMsg1
  · have hend : Guarded (.ok true : Checked Bool) True (· = micOk C msgType ptk elem.pkt) :=
      .ok (by rw [micOk, hfirst]; simp)
    rw [if_pos hfirst]
    exact hend.congr (iff_of_true trivial fun h => absurd hfirst h)
  · rw [if_neg hfirst, imp_iff_right hfirst]
    refine ((looksAt_guarded elem _ _).bind fun _ _ => (looksAt_guarded elem _ _).bind fun _ _ =>
      Guarded.map (R := (· = micOk C msgType ptk elem.pkt)) (looksAt_guarded elem 0 _)
        fun _ _ => rfl).congr ?_
    rw [bodyLenAt, keyMicAt, lenKeyDescMic, micOctets]
    split_ifs <;> omega

/-- **`PeerWpaMessageSanity` stays inside exactly if the frame can be checked.** -/
theorem checkedPeerWpaMessageSanity_guarded (hbody : elem.BodyInside) :
    Guarded (checkedPeerWpaMessageSanity C env ad elem msgType)
      (SanityInside C env ad elem msgType)
      (· = peerWpaMessageSanity C env ad elem.pkt msgType) := by
  have hend : ∀ s : Sanity, Guarded (.ok s : Checked Sanity) True (· = s) := fun s => .ok rfl
  rw [checkedPeerWpaMessageSanity, peerWpaMessageSanity, SanityInside]
  cases halloc : env.alloc .keyData with
  | false => exact (hend _).congr (iff_of_true trivial fun h => by cases h)
  | true =>
    simp only [Bool.not_true, Bool.false_eq_true, if_false, forall_const]
    refine (looksAt_guarded elem _ _).bind fun _ _ => (looksAt_guarded elem _ _).bind fun _ _ => ?_
    cases hreplay : replayOk msgType elem.pkt.replayCounter ad.entry.rCounter with
    | false => exact (hend _).congr (iff_of_true trivial fun h => by cases h)
    | true =>
      simp only [Bool.not_true, Bool.false_eq_true, if_false, forall_const]
      refine (checkedMicOk_guarded hbody).bindEq ?_
      cases hmic : micOk C msgType ad.entry.ptk elem.pkt with
      | false => exact (hend _).congr (iff_of_true trivial fun h => by cases h)
      | true =>
        simp only [Bool.not_true, Bool.false_eq_true, if_false, forall_const]
        exact (checkedPeerWpaKeyData_guarded C env ad elem msgType).map fun r hr => by
          subst hr
          cases peerWpaKeyData C env ad elem.pkt msgType with
          | none => rfl
          | some p => rfl

/-! ## 7. The handlers -/

theorem comparedOctets_le : ∀ l m : List UInt8, comparedOctets l m ≤ l.length
  | [], _ => Nat.le_refl 0
  | _ :: _, [] => Nat.zero_le _
  | a :: as, b :: bs => by
    rw [comparedOctets, List.length_cons]
    have ih := comparedOctets_le as bs
    split <;> omega

theorem replayOctets_le (msgType : MsgType) (received stored : Octets lenKeyDescReplay) :
    replayOctets msgType received stored ≤ lenKeyDescReplay := by
  have hle : ∀ m, comparedOctets received.toList m ≤ lenKeyDescReplay := fun m =>
    (comparedOctets_le _ m).trans (received.toList_length).le
  rw [replayOctets]
  split_ifs
  · exact hle _
  · exact Nat.max_le.mpr ⟨hle _, hle _⟩
  · exact Nat.le_refl _

/-- A frame with a whole descriptor can be checked if its key data fit. -/
theorem sanityInside_of_long
    (hlong : length80211 + length8021H + keyDataAt ≤ elem.msgLen.toNat)
    (h : KeyDataBounded C env elem msgType ad.entry.authMode.bWPA2 ad.entry.ptk) :
    SanityInside C env ad elem msgType := by
  have hle := replayOctets_le msgType elem.pkt.replayCounter ad.entry.rCounter
  rw [keyDataAt] at hlong
  rw [lenKeyDescReplay] at hle
  refine fun _ => ⟨?_, ?_, fun _ => ⟨fun _ => ?_, fun _ => ⟨hlong, fun _ => h⟩⟩⟩
  · rw [keyInfoAt]
    omega
  · rw [replayCounterAt]
    omega
  · rw [keyMicAt, lenKeyDescMic]
    omega

/-- A message whose key data are not looked at. -/
theorem keyDataBounded_of_not_parsed (h2 : msgType ≠ .pairMsg2) (h3 : msgType ≠ .pairMsg3)
    (h1 : msgType ≠ .groupMsg1) : KeyDataBounded C env elem msgType bWPA2 ptk := by
  have hciphered : ¬ ((msgType = .pairMsg3 ∧ bWPA2 = true) ∨ msgType = .groupMsg1) :=
    fun h => h.elim (fun h => h3 h.1) h1
  have hclear : ¬ (msgType = .pairMsg2 ∨ (msgType = .pairMsg3 ∧ (!bWPA2) = true)) :=
    fun h => h.elim h2 fun h => h3 h.1
  constructor
  · rw [CopyInside, if_neg hciphered, if_neg hclear]
    trivial
  · have hnone : keyDataOf C (env.withHeap []) msgType bWPA2 ptk elem.pkt = none := by
      rw [keyDataOf]
      dsimp only
      rw [if_neg hciphered, if_neg hclear]
    rw [hnone]
    trivial

/-- **A handler**: what it reads of a frame that has passed lies before the key data. -/
theorem checkedPass_guarded {n : Nat} {handle : Adapter → Outcome} (hbody : elem.BodyInside)
    (hn : replayCounterAt + n ≤ keyDataAt) :
    Guarded (checkedPass C env ad elem msgType n handle) (SanityInside C env ad elem msgType)
      (· = (peerWpaMessageSanity C env ad elem.pkt msgType).andThen handle) := by
  refine ((checkedPeerWpaMessageSanity_guarded hbody).keep.bind (S := True) fun s hs => ?_).congr
    (and_iff_left trivial)
  obtain ⟨hinside, rfl⟩ := hs
  rw [Elem.looksIf]
  by_cases hpass : (peerWpaMessageSanity C env ad elem.pkt msgType).failure = none
  · obtain ⟨halloc, hreplay, hmic⟩ := passed_of_failure_eq_none hpass
    have hlong := (((hinside halloc).2.2 hreplay).2 hmic).1
    rw [if_pos (decide_eq_true hpass), looksAt_ok (by omega)]
    exact .ok rfl
  · rw [if_neg (by simpa using hpass)]
    exact .ok rfl

/-- What the handlers ask of a frame, if they come to look at it. -/
def HandlerInside (C : Crypto) (env : Env) (ad : Adapter) (elem : Elem) : Handler → Prop
  | .pairMsg2 =>
    ReadyForMsg2 ad elem → SanityInside C env (adOfMsg2 C env ad elem.pkt) elem .pairMsg2
  | .pairMsg3 => ReadyForMsg3 ad elem → SanityInside C env ad elem .pairMsg3
  | .groupMsg1 => ad.opMode = .sta → SanityInside C env ad elem .groupMsg1
  | _ => True

theorem long_of_not_tooShort (h : elem.tooShort = false) :
    length80211 + length8021H + keyDataAt ≤ elem.msgLen.toNat := by
  rw [Elem.tooShort, decide_eq_false_iff_not, Nat.not_lt] at h
  exact h

private theorem quiet (o : Outcome) : Guarded (.ok o : Checked Outcome) True (· = o) := .ok rfl

/-- A frame that the handler leaves alone. -/
private theorem leaves {c : Prop} [Decidable c] {o o' : Outcome} {x : Checked Outcome}
    (h : ¬ c → Guarded x True (· = o')) :
    Guarded (if c then .ok o else x) True (· = if c then o else o') := by
  by_cases hc : c
  · simp only [if_pos hc]
    exact quiet o
  · simp only [if_neg hc]
    exact h hc

theorem checkedPairMsg1_guarded (hbody : elem.BodyInside) :
    Guarded (checkedPairMsg1 C env ad elem) True (· = peerPairMsg1Action C env ad elem) := by
  rw [checkedPairMsg1, peerPairMsg1Action]
  cases ad.entry.entryClient with
  | false => exact quiet _
  | true =>
    cases hshort : elem.tooShort with
    | true => exact quiet _
    | false =>
      cases ad.opMode with
      | ap => exact quiet _
      | sta =>
        exact (checkedPass_guarded hbody (by decide)).congr (iff_of_true
          (sanityInside_of_long (long_of_not_tooShort hshort)
            (keyDataBounded_of_not_parsed nofun nofun nofun)) trivial)

theorem checkedPairMsg3_guarded (hbody : elem.BodyInside) :
    Guarded (checkedPairMsg3 C env ad elem) (HandlerInside C env ad elem .pairMsg3)
      (· = peerPairMsg3Action C env ad elem) := by
  rw [checkedPairMsg3, peerPairMsg3Action]
  cases hclient : ad.entry.entryClient with
  | false =>
    exact (quiet _).congr (iff_of_true trivial fun h => by cases hclient.symm.trans h.client)
  | true =>
    cases hshort : elem.tooShort with
    | true => exact (quiet _).congr (iff_of_true trivial fun h => by cases hshort.symm.trans h.long)
    | false =>
      cases hop : ad.opMode with
      | ap => exact (quiet _).congr (iff_of_true trivial fun h => by cases hop.symm.trans h.sta)
      | sta =>
        refine (checkedPass_guarded hbody (by decide)).congr ?_
        exact ⟨fun h _ => h, fun h => h ⟨hclient, hshort, hop⟩⟩

theorem checkedGroupMsg1_guarded (hbody : elem.BodyInside) (hclient : ad.entry.entryClient = true) :
    Guarded (checkedGroupMsg1 C env ad elem) (HandlerInside C env ad elem .groupMsg1)
      (· = peerGroupMsg1Action C env ad elem) := by
  rw [checkedGroupMsg1, peerGroupMsg1Action, hclient, HandlerInside]
  cases hop : ad.opMode with
  | ap => exact (quiet _).congr (iff_of_true trivial nofun)
  | sta => exact (checkedPass_guarded hbody (by decide)).congr ⟨fun h _ => h, fun h => h rfl⟩

theorem checkedPairMsg2_of_ready (h : ReadyForMsg2 ad elem) :
    checkedPairMsg2 C env ad elem =
      checkedPass C env (adOfMsg2 C env ad elem.pkt) elem .pairMsg2 0 (pairMsg2Passed C env) := by
  have hlong := long_of_not_tooShort h.long
  rw [keyDataAt] at hlong
  rw [checkedPairMsg2, h.client, h.long, if_neg (by decide), if_neg (by decide), if_neg h.state]
  split
  next hsta => exact nomatch h.ap.symm.trans hsta
  next =>
    rw [if_neg h.bss, looksAt_ok (by rw [keyNonceAt, lenKeyDescNonce]; omega)]
    rfl

theorem checkedPairMsg2_guarded (hbody : elem.BodyInside) :
    Guarded (checkedPairMsg2 C env ad elem) (HandlerInside C env ad elem .pairMsg2)
      (· = peerPairMsg2Action C env ad elem) := by
  by_cases hready : ReadyForMsg2 ad elem
  · rw [checkedPairMsg2_of_ready hready, peerPairMsg2Action_of_ready hready]
    exact (checkedPass_guarded hbody (by decide)).congr ⟨fun h _ => h, fun h => h hready⟩
  · refine Guarded.congr (P := True) ?_ (iff_of_true trivial fun h => absurd h hready)
    rw [checkedPairMsg2, peerPairMsg2Action]
    cases hclient : ad.entry.entryClient with
    | false => exact quiet _
    | true =>
      cases hshort : elem.tooShort with
      | true => exact quiet _
      | false =>
        have hlong := long_of_not_tooShort hshort
        rw [keyDataAt] at hlong
        simp only [Bool.not_true, Bool.false_eq_true, if_false]
        by_cases hstate : ad.entry.wpaState < .ptkStart
        · rw [if_pos hstate, if_pos hstate]
          exact quiet _
        · rw [if_neg hstate, if_neg hstate]
          cases hop : ad.opMode with
          | sta =>
            dsimp only
            rw [looksAt_ok (by rw [keyNonceAt, lenKeyDescNonce]; omega)]
            exact quiet _
          | ap =>
            have hbss : ad.bssidNum ≤ ad.entry.apidx := by
              by_contra hbss
              exact hready ⟨hclient, hshort, hstate, hop, hbss⟩
            dsimp only
            rw [if_pos hbss, if_pos hbss]
            exact quiet _

theorem checkedPairMsg4_guarded (hbody : elem.BodyInside) :
    Guarded (checkedPairMsg4 C env ad elem) True (· = peerPairMsg4Action C env ad elem) := by
  rw [checkedPairMsg4, peerPairMsg4Action]
  refine leaves fun _ => leaves fun hshort => leaves fun _ => leaves fun _ => ?_
  have hinside : SanityInside C env ad elem .pairMsg4 :=
    sanityInside_of_long (long_of_not_tooShort (by simpa using hshort))
      (keyDataBounded_of_not_parsed nofun nofun nofun)
  exact (checkedPass_guarded hbody (by decide)).congr (iff_of_true hinside trivial)

theorem checkedGroupMsg2_guarded (hbody : elem.BodyInside)
    (hlen : length80211 + length8021H + keyInfoAt + 2 ≤ elem.msgLen.toNat) :
    Guarded (checkedGroupMsg2 C env ad elem) True (· = peerGroupMsg2Action C env ad elem) := by
  rw [checkedGroupMsg2, peerGroupMsg2Action]
  refine leaves fun _ => leaves fun hshort => leaves fun _ => leaves fun _ => ?_
  have hlong : length80211 + length8021H + keyDataAt ≤ elem.msgLen.toNat := by
    rw [length80211, length8021H, keyInfoAt] at hlen
    have h24 : (24 : UInt64) ≤ elem.msgLen := by
      rw [UInt64.le_iff_toNat_le]
      exact Nat.le_trans (by decide) hlen
    have h24' : (24 : UInt64).toNat = 24 := rfl
    rw [UInt64.toNat_toUInt32, UInt64.toNat_sub_of_le _ _ h24, length8021H, lengthEapolH,
      minLenOfEapolKeyMsg] at hshort
    rw [length80211, length8021H, keyDataAt]
    omega
  have hinside : SanityInside C env ad elem .groupMsg2 :=
    sanityInside_of_long hlong (keyDataBounded_of_not_parsed nofun nofun nofun)
  exact (checkedPass_guarded hbody (by decide)).congr (iff_of_true hinside trivial)

/-! ## 8. `WpaEAPOLKeyAction` -/

/-- **Nothing reaches out of the frame or of a buffer.**  The frame holds the key information; a frame
that is told by its key data length holds that too; and its handler can check it. -/
def FrameInside (C : Crypto) (env : Env) (ad : Adapter) (elem : Elem) : Prop :=
  length80211 + length8021H + keyInfoAt + 2 ≤ elem.msgLen.toNat ∧
  (wpaEapolKeyAdmits ad elem →
    (readsKeyDataLen elem.pkt.keyInfo → length80211 + length8021H + keyDataAt ≤ elem.msgLen.toNat) ∧
    ∀ h, handlerOf ad elem = some h → HandlerInside C env ad elem h)

theorem bodyInside_of_admits
    (hlen : length80211 + length8021H + keyInfoAt + 2 ≤ elem.msgLen.toNat)
    (h : wpaEapolKeyAdmits ad elem = true) : elem.BodyInside := by
  rw [wpaEapolKeyAdmits, decide_eq_true_eq] at h
  have hbody := h.2.2.1
  have hlt := elem.pkt.bodyLen.toNat_lt
  have hmsg := elem.msgLen.toNat_lt
  rw [length80211, length8021H, keyInfoAt] at hlen
  rw [UInt64.le_iff_toNat_le, UInt64.toNat_ofNat', UInt64.toNat_sub, UInt64.toNat_sub,
    lengthEapolH] at hbody
  have h24 : (24 : UInt64).toNat = 24 := rfl
  have h8 : (8 : UInt64).toNat = 8 := rfl
  rw [Elem.BodyInside, length80211, length8021H, lengthEapolH]
  omega

theorem client_of_admits (h : wpaEapolKeyAdmits ad elem = true) :
    ad.entry.entryClient = true := by
  rw [wpaEapolKeyAdmits, decide_eq_true_eq, Adapter.macTableLookup, decide_eq_true_eq] at h
  exact h.1.1

theorem checkedRun_guarded
    (hlen : length80211 + length8021H + keyInfoAt + 2 ≤ elem.msgLen.toNat)
    (hadmits : wpaEapolKeyAdmits ad elem = true) (h : Handler) :
    Guarded (h.checkedRun C env ad elem) (HandlerInside C env ad elem h)
      (· = h.run C env ad elem) := by
  have hbody := bodyInside_of_admits hlen hadmits
  cases h with
  | pairMsg1 => exact checkedPairMsg1_guarded hbody
  | pairMsg2 => exact checkedPairMsg2_guarded hbody
  | pairMsg3 => exact checkedPairMsg3_guarded hbody
  | pairMsg4 => exact checkedPairMsg4_guarded hbody
  | groupMsg1 => exact checkedGroupMsg1_guarded hbody (client_of_admits hadmits)
  | groupMsg2 => exact checkedGroupMsg2_guarded hbody hlen
  | counterMeasure => exact quiet _
  | groupRekey => exact quiet _
  | pairwiseRekey => exact quiet _

/-- **What is not stopped comes to what `WpaEAPOLKeyAction` comes to**, and it is stopped exactly if the
frame is not inside. -/
theorem checkedWpaEapolKeyAction_guarded (C : Crypto) (env : Env) (ad : Adapter) (elem : Elem) :
    Guarded (checkedWpaEapolKeyAction C env ad elem) (FrameInside C env ad elem)
      (· = wpaEapolKeyAction C env ad elem) := by
  rw [checkedWpaEapolKeyAction, FrameInside, wpaEapolKeyAction_eq]
  by_cases hlen : length80211 + length8021H + keyInfoAt + 2 ≤ elem.msgLen.toNat
  · have hearlier : length80211 + length8021H + bodyLenAt + 2 ≤ elem.msgLen.toNat :=
      Nat.le_trans (by decide) hlen
    have haddr : addr2At + 6 ≤ elem.msgLen.toNat := Nat.le_trans (by decide) hlen
    rw [looksAt_ok hearlier, looksAt_ok hlen, access_ok haddr, and_iff_right hlen]
    dsimp only [ok_bind]
    cases hadmits : wpaEapolKeyAdmits ad elem with
    | false =>
      have hnone : handlerOf ad elem = none := by
        rw [handlerOf, hadmits]
        rfl
      rw [hnone]
      exact (quiet _).congr (iff_of_true trivial fun h => by cases h)
    | true =>
      rw [imp_iff_right rfl, if_neg (by decide)]
      refine (looksIf_guarded elem (readsKeyDataLen elem.pkt.keyInfo) keyDataLenAt 2).bind
        fun _ _ => ?_
      cases handlerOf ad elem with
      | none => exact (quiet _).congr (iff_of_true trivial fun _ h => by cases h)
      | some h =>
        refine (checkedRun_guarded hlen hadmits h).congr ⟨fun hin h' hh => ?_, fun hin => hin h rfl⟩
        cases hh
        exact hin
  · refine Guarded.congr (P := False) ⟨⟨?_, False.elim⟩, ?_⟩ ⟨False.elim, fun h => hlen h.1⟩
    · intro hsafe
      obtain ⟨_, -, hsafe⟩ := safe_bind.mp hsafe
      obtain ⟨_, hlook, -⟩ := safe_bind.mp hsafe
      exact hlen (safe_access.mp ⟨_, hlook⟩)
    · intro r hr
      obtain ⟨_, -, hsafe⟩ := safe_bind.mp ⟨r, hr⟩
      obtain ⟨_, hlook, -⟩ := safe_bind.mp hsafe
      exact absurd (safe_access.mp ⟨_, hlook⟩) hlen

/-- **No frame makes `WpaEAPOLKeyAction` read behind itself, or fill a buffer beyond its end, exactly
if it is inside.** -/
theorem wpaEapolKeyAction_inside_iff (C : Crypto) (env : Env) (ad : Adapter) (elem : Elem) :
    Safe (checkedWpaEapolKeyAction C env ad elem) ↔ FrameInside C env ad elem :=
  (checkedWpaEapolKeyAction_guarded C env ad elem).safe

end

namespace Example

/-- Message 2 with 300 octets of key data, under the right code. -/
def oversizedMsg2 (C : Crypto) : Elem where
  addr2 := List.Vector.replicate 6 1
  msgLen := 431
  pkt := (pairwiseFrame (.zero 8)).withKeyData C
    (ptkOfMsg2 C plenty msg1Sender (pairwiseFrame (.zero 8))) (95 + 300) 300 (List.replicate 300 0)

/-- They are copied into the 255 octets of `KEYDATA`. -/
theorem not_wpaEapolKeyAction_inside :
    ¬ ∀ C env ad elem, Safe (checkedWpaEapolKeyAction C env ad elem) := by
  intro h
  have hsafe := h .driver plenty msg1Sender (oversizedMsg2 .driver)
  have hinside := (checkedWpaEapolKeyAction_guarded _ _ _ _).safe.mp hsafe
  have hadmits : wpaEapolKeyAdmits msg1Sender (oversizedMsg2 .driver) = true := by
    decide
  have hhandler : handlerOf msg1Sender (oversizedMsg2 .driver) = some .pairMsg2 := by
    rw [handlerOf, hadmits]
    rfl
  have hready : ReadyForMsg2 msg1Sender (oversizedMsg2 .driver) :=
    ⟨rfl, rfl, by decide, rfl, by decide⟩
  have hmic : micOk .driver .pairMsg2 (ptkOfMsg2 .driver plenty msg1Sender (pairwiseFrame (.zero 8)))
      (oversizedMsg2 .driver).pkt = true := micOk_of_signed (signed_withKeyData _ _ _)
  have hsanity := (hinside.2 hadmits).2 _ hhandler hready
  have hbounded := (((hsanity rfl).2.2 (by decide)).2 hmic).2 (by decide)
  have hfit : 300 ≤ maxLenOfRsnie := hbounded.1.2
  exact absurd hfit (by decide)

end Example

end Mt7601.Wpa
