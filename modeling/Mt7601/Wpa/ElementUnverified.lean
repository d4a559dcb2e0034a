/-
# The element of a handshake message is not compared

`RTMPParseEapolKeyData` announces that it verifies the RSN element of messages 2 and 3 and skips it,
and logs that it matched. It has nothing to compare the element with, and the number of octets to
skip is 0. A message that is accepted is accepted with any other element in its place, and leaves
the same behind (`elements_unverified`).
-/
import Mt7601.Wpa.RoundTrip

namespace Mt7601.Wpa

/-! ## 1. The same message with other key data -/

/-- A frame with other key data and lengths, and the code that its sender then puts on it. -/
def EapolPacket.withKeyData (C : Crypto) (ptk : Octets lenPtk) (pMsg : EapolPacket)
    (bodyLen keyDataLen : UInt16) (keyData : List UInt8) : EapolPacket :=
  let msg := { pMsg with bodyLen, keyDataLen, keyData, keyMic := .zero lenKeyDescMic }
  { msg with keyMic := micOf C msg.keyInfo.keyDescVer ptk msg.micInput }

/-- The key data of an accepted message 3 when it is parsed. -/
def decipherKeyData (C : Crypto) (ptk : Octets lenPtk) (pMsg : EapolPacket) : List UInt8 :=
  if pMsg.keyInfo.keyDescVer = keyDescExt ∨ pMsg.keyInfo.keyDescVer = keyDescAes then
    aesKeyUnwrap C (kekOf ptk) pMsg.keyData pMsg.keyDataLen.toNat
  else
    tkipGtkKeyWrap (kekOf ptk) pMsg.keyIv (Mem.read pMsg.keyData 0 pMsg.keyDataLen.toNat)

/-- The other way round. -/
def encipherKeyData (C : Crypto) (ptk : Octets lenPtk) (pMsg : EapolPacket)
    (plain : List UInt8) : List UInt8 :=
  if pMsg.keyInfo.keyDescVer = keyDescExt ∨ pMsg.keyInfo.keyDescVer = keyDescAes then
    aesKeyWrap C (kekOf ptk) plain
  else tkipGtkKeyWrap (kekOf ptk) pMsg.keyIv plain

/-- An RSN element. -/
def rsnElement (body : List UInt8) : List UInt8 := ieRsn :: UInt8.ofNat body.length :: body

section

variable {C : Crypto} {env : Env} {ad : Adapter} {ptk : Octets lenPtk} {pMsg : EapolPacket}

theorem signed_withKeyData (bodyLen keyDataLen : UInt16) (keyData : List UInt8) :
    (pMsg.withKeyData C ptk bodyLen keyDataLen keyData).Signed C ptk := rfl

/-! ## 2. Message 2 -/

/-- The key data of message 2 is copied and left alone. -/
theorem peerWpaKeyData_pairMsg2 : peerWpaKeyData C env ad pMsg .pairMsg2 = some (ad, []) := by
  have hparse : ∀ keyData keyDataLen groupKeyIndex, rtmpParseEapolKeyData ad keyData keyDataLen
      groupKeyIndex .pairMsg2 ad.entry.authMode.bWPA2 = some (ad, []) := by
    intro keyData keyDataLen groupKeyIndex
    rw [rtmpParseEapolKeyData, if_pos ⟨.inl rfl, fun h => by cases h.2⟩]
  rw [peerWpaKeyData]
  by_cases hnone : pMsg.keyDataLen = 0
  · rw [if_pos hnone]
  · rw [if_neg hnone]
    cases keyDataOf C env .pairMsg2 ad.entry.authMode.bWPA2 ad.entry.ptk pMsg with
    | none => rfl
    | some found => exact hparse ..

/-- What a passed message 2 leaves does not depend on its key data. -/
theorem peerWpaMessageSanity_pairMsg2 (halloc : env.alloc .keyData = true)
    (hreplay : replayOk .pairMsg2 pMsg.replayCounter ad.entry.rCounter = true)
    (hmic : micOk C .pairMsg2 ad.entry.ptk pMsg = true) :
    peerWpaMessageSanity C env ad pMsg .pairMsg2 = { ad } := by
  rw [peerWpaMessageSanity, halloc, hreplay, hmic, peerWpaKeyData_pairMsg2]
  rfl

/-- A message that was not rejected has passed the checks. -/
theorem passed_of_failure_eq_none {msgType : MsgType}
    (h : (peerWpaMessageSanity C env ad pMsg msgType).failure = none) :
    env.alloc .keyData = true ∧ replayOk msgType pMsg.replayCounter ad.entry.rCounter = true ∧
      micOk C msgType ad.entry.ptk pMsg = true := by
  rw [peerWpaMessageSanity] at h
  split_ifs at h with halloc hreplay hmic
  exact ⟨by simpa using halloc, by simpa using hreplay, by simpa using hmic⟩

theorem failure_eq_none_of_accepted {s : Sanity} {handle : Adapter → Outcome}
    (h : (s.andThen handle).verdict = .accepted) : s.failure = none := by
  unfold Sanity.andThen at h
  cases hs : s.failure with
  | none => rfl
  | some why =>
    rw [hs] at h
    exact nomatch h

/-- The PTK that the access point derives from a message 2. -/
def ptkOfMsg2 (C : Crypto) (env : Env) (ad : Adapter) (pMsg2 : EapolPacket) : Octets lenPtk :=
  wpaDerivePtk C env ad.mbss.pmk ad.entry.aNonce ad.mbss.bssid pMsg2.keyNonce ad.entry.addr

/-- What `PeerPairMsg2Action` asks of the entry and of the length of the frame. -/
structure ReadyForMsg2 (ad : Adapter) (elem : Elem) : Prop where
  client : ad.entry.entryClient = true
  long : elem.tooShort = false
  state : ¬ ad.entry.wpaState < .ptkStart
  ap : ad.opMode = .ap
  bss : ¬ ad.bssidNum ≤ ad.entry.apidx

/-- The entry when the frame is checked. -/
def adOfMsg2 (C : Crypto) (env : Env) (ad : Adapter) (pMsg2 : EapolPacket) : Adapter :=
  { ad with
    entry.sNonce := pMsg2.keyNonce
    entry.ptk := ptkOfMsg2 C env ad pMsg2 }

theorem peerPairMsg2Action_of_ready {elem : Elem} (h : ReadyForMsg2 ad elem) :
    peerPairMsg2Action C env ad elem =
      (peerWpaMessageSanity C env (adOfMsg2 C env ad elem.pkt) elem.pkt .pairMsg2).andThen
        (pairMsg2Passed C env) := by
  rw [peerPairMsg2Action, h.client, h.long, if_neg (by decide), if_neg (by decide), if_neg h.state]
  split
  next hsta => exact nomatch h.ap.symm.trans hsta
  next => rw [if_neg h.bss]; rfl

theorem ready_of_accepted {elem : Elem}
    (h : (peerPairMsg2Action C env ad elem).verdict = .accepted) : ReadyForMsg2 ad elem := by
  rw [peerPairMsg2Action] at h
  split_ifs at h with hclient hshort hstate hbss
  · cases hop : ad.opMode <;> rw [hop] at h <;> exact nomatch h
  · refine ⟨by simpa using hclient, by simpa using hshort, hstate, ?_, hbss⟩
    cases hop : ad.opMode with
    | ap => rfl
    | sta =>
      rw [hop] at h
      exact nomatch h

/-- **Message 2: any other key data is accepted, with the same outcome.** -/
theorem peerPairMsg2Action_withKeyData {elem : Elem}
    (h : (peerPairMsg2Action C env ad elem).verdict = .accepted) {msgLen : UInt64}
    (hlong : Elem.tooShort { elem with msgLen } = false) (bodyLen keyDataLen : UInt16)
    (keyData : List UInt8) :
    peerPairMsg2Action C env ad
      { elem with
        msgLen
        pkt := elem.pkt.withKeyData C (ptkOfMsg2 C env ad elem.pkt) bodyLen keyDataLen keyData } =
      peerPairMsg2Action C env ad elem := by
  have hready := ready_of_accepted h
  rw [peerPairMsg2Action_of_ready hready] at h ⊢
  obtain ⟨halloc, hreplay, hmic⟩ := passed_of_failure_eq_none (failure_eq_none_of_accepted h)
  have hready' : ReadyForMsg2 ad { elem with
      msgLen
      pkt := elem.pkt.withKeyData C (ptkOfMsg2 C env ad elem.pkt) bodyLen keyDataLen keyData } :=
    ⟨hready.client, hlong, hready.state, hready.ap, hready.bss⟩
  have hmic' : micOk C .pairMsg2 (ptkOfMsg2 C env ad elem.pkt) (elem.pkt.withKeyData C
      (ptkOfMsg2 C env ad elem.pkt) bodyLen keyDataLen keyData) = true :=
    micOk_of_signed (signed_withKeyData bodyLen keyDataLen keyData)
  rw [peerPairMsg2Action_of_ready hready', peerWpaMessageSanity_pairMsg2 halloc hreplay hmic]
  exact congrArg (Sanity.andThen · (pairMsg2Passed C env))
    (peerWpaMessageSanity_pairMsg2 halloc hreplay hmic')

/-! ## 3. Message 3 -/

/-- The walk depends on what it has in front of it only. -/
theorem parseKde_congr {l l' : List UInt8} {n skip : Nat} (found : GtkFound)
    (h : l.drop skip = l'.drop skip) : parseKde l n skip found = parseKde l' n skip found := by
  have hget : ∀ i, l.getD (skip + i) 0 = l'.getD (skip + i) 0 := fun i =>
    (getD_of_drop h i).trans (getD_of_drop rfl i).symm
  have hread : ∀ i k, Mem.read l (skip + i) k = Mem.read l' (skip + i) k := fun i k =>
    (read_of_drop h i k).trans (read_of_drop rfl i k).symm
  have hnext : ∀ found, skip + 2 + (l'.getD (skip + 1) 0).toNat ≤ n →
      parseKde l n (skip + 2 + (l'.getD (skip + 1) 0).toNat) found =
        parseKde l' n (skip + 2 + (l'.getD (skip + 1) 0).toNat) found := by
    intro found hfits
    refine parseKde_congr found ?_
    rw [Nat.add_assoc, ← List.drop_drop, h, List.drop_drop]
  have h0 : l.getD skip 0 = l'.getD skip 0 := hget 0
  unfold parseKde
  dsimp only
  rw [h0, hget 1, hread 2 3, hget 5, hget 6, hread 8]
  by_cases hfits : skip + 2 + (l'.getD (skip + 1) 0).toNat ≤ n
  · rw [if_pos hfits, if_pos hfits, hnext found hfits, hnext _ hfits]
  · rw [if_neg hfits, if_neg hfits]
termination_by n - skip

/-- The parser passes over the element, whatever it says. -/
theorem parseKde_rsnElement {body body' : List UInt8} (rest behind : List UInt8)
    (hlen : body'.length = body.length) (hbody : body.length ≤ 255) (n : Nat) (found : GtkFound) :
    parseKde (rsnElement body' ++ rest ++ behind) n 0 found =
      parseKde (rsnElement body ++ rest ++ behind) n 0 found := by
  have hdrop : ∀ b : List UInt8, (rsnElement b ++ rest ++ behind).drop 0 =
      ieRsn :: UInt8.ofNat b.length :: (b ++ (rest ++ behind)) := by
    intro b
    rw [List.drop_zero, rsnElement]
    simp only [List.cons_append, List.append_assoc]
  have hget : ∀ b : List UInt8, b.length ≤ 255 →
      ((rsnElement b ++ rest ++ behind).getD (0 + 1) 0).toNat = b.length := by
    intro b hb
    rw [getD_of_drop (hdrop b)]
    exact Nat.mod_eq_of_lt (Nat.lt_succ_of_le hb)
  by_cases hfits : 0 + 2 + body.length ≤ n
  · rw [parseKde_element (hdrop body) hbody (by decide) hfits,
      parseKde_element (hdrop body') (hlen ▸ hbody) (by decide) (hlen ▸ hfits), hlen]
    refine parseKde_congr found ?_
    have hdrop' : ∀ b : List UInt8, b.length = body.length →
        (rsnElement b ++ rest ++ behind).drop (0 + 2 + body.length) = rest ++ behind := by
      intro b hb
      rw [List.append_assoc]
      refine List.drop_left' ?_
      rw [rsnElement, List.length_cons, List.length_cons, hb]
      omega
    rw [hdrop' body' hlen, hdrop' body rfl]
  · have hcut : ∀ b : List UInt8, b.length = body.length →
        parseKde (rsnElement b ++ rest ++ behind) n 0 found = some found := by
      intro b hb
      refine parseKde_tooLong ?_
      rw [hget b (hb ▸ hbody), hb]
      omega
    rw [hcut body' hlen, hcut body rfl]

/-- What is parsed of a message 3 of WPA2 is its deciphered key data. -/
theorem keyDataOf_pairMsg3 (henv : env.allocs) :
    keyDataOf C env .pairMsg3 true ptk pMsg =
      some (Mem.write (List.replicate maxLenOfRsnie 0 ++ env.heap) 0 (decipherKeyData C ptk pMsg),
        UInt16.ofNat (decipherKeyData C ptk pMsg).length) := by
  rw [keyDataOf, decipherKeyData]
  dsimp only
  rw [if_pos (.inl ⟨rfl, rfl⟩), henv, henv, if_pos rfl, if_pos rfl]
  split_ifs
  · rfl
  · rw [length_tkipGtkKeyWrap, Mem.length_read, UInt16.ofNat_toNat]

/-- Unwrapping makes a text of the length that it is told. -/
theorem length_aesKeyUnwrap (key : Octets 16) (cipherText : List UInt8) (n : Nat) :
    (aesKeyUnwrap C key cipherText n).length = unwrapLength n := by
  rw [aesKeyUnwrap]
  generalize unwrapLength n = m
  rw [unwrapBlocks]
  refine Cipher.rounds_invariant (fun t : Octets 8 × List UInt8 => t.2.length = m)
    ?_ (Mem.length_read _ _ _)
  intro ji hji t ht
  have hlt := mem_wrapIndices (List.mem_reverse.mp hji)
  refine (Mem.length_write ?_).trans ht
  rw [List.Vector.toList_length, ht]
  omega

/-- Key data of the length of a frame's, enciphered again. -/
theorem encipherKeyData_spec (hC : C.AesInverse) {plain plain' : List UInt8}
    (hplain : decipherKeyData C ptk pMsg = plain) (hlen : plain'.length = plain.length)
    (hlt : plain.length < 2 ^ 16) (behind : List UInt8) (bodyLen : UInt16) :
    decipherKeyData C ptk (pMsg.withKeyData C ptk bodyLen pMsg.keyDataLen
      (encipherKeyData C ptk pMsg plain' ++ behind)) = plain' := by
  have hkdl := pMsg.keyDataLen.toNat_lt
  by_cases hver : pMsg.keyInfo.keyDescVer = keyDescExt ∨ pMsg.keyInfo.keyDescVer = keyDescAes
  · have hunwrap := length_aesKeyUnwrap (C := C) (kekOf ptk) pMsg.keyData pMsg.keyDataLen.toNat
    rw [decipherKeyData, if_pos hver] at hplain
    rw [hplain, unwrapLength] at hunwrap
    have height : pMsg.keyDataLen.toNat = plain'.length + 8 := by omega
    have hback : decipherKeyData C ptk (pMsg.withKeyData C ptk bodyLen pMsg.keyDataLen
        (encipherKeyData C ptk pMsg plain' ++ behind)) = aesKeyUnwrap C (kekOf ptk)
          (encipherKeyData C ptk pMsg plain' ++ behind) pMsg.keyDataLen.toNat := if_pos hver
    rw [hback, encipherKeyData, if_pos hver, height]
    exact aesKeyUnwrap_aesKeyWrap hC _ _ _ (by omega)
  · have hlength := congrArg List.length hplain
    rw [decipherKeyData, if_neg hver, length_tkipGtkKeyWrap, Mem.length_read] at hlength
    have hread := Mem.read_zero_of_append (l := tkipGtkKeyWrap (kekOf ptk) pMsg.keyIv plain')
      (m := behind)
    rw [length_tkipGtkKeyWrap, hlen, ← hlength] at hread
    have hback : decipherKeyData C ptk (pMsg.withKeyData C ptk bodyLen pMsg.keyDataLen
        (encipherKeyData C ptk pMsg plain' ++ behind)) = tkipGtkKeyWrap (kekOf ptk) pMsg.keyIv
          (Mem.read (encipherKeyData C ptk pMsg plain' ++ behind) 0 pMsg.keyDataLen.toNat) :=
      if_neg hver
    rw [hback, encipherKeyData, if_neg hver, hread, tkipGtkKeyWrap_tkipGtkKeyWrap]

/-- The parser takes from the key data what its walk finds. -/
theorem rtmpParseEapolKeyData_congr {keyData keyData' : List UInt8} (keyDataLen : UInt8)
    (h : parseKde keyData keyDataLen.toNat 0 {} = parseKde keyData' keyDataLen.toNat 0 {}) :
    rtmpParseEapolKeyData ad keyData keyDataLen 0 .pairMsg3 true =
      rtmpParseEapolKeyData ad keyData' keyDataLen 0 .pairMsg3 true := by
  have hgtk : gtkOfKeyData keyData keyDataLen.toNat 0 true =
      gtkOfKeyData keyData' keyDataLen.toNat 0 true := h
  rw [rtmpParseEapolKeyData, rtmpParseEapolKeyData, hgtk]

/-- What `PeerPairMsg3Action` asks of the entry and of the length of the frame. -/
structure ReadyForMsg3 (ad : Adapter) (elem : Elem) : Prop where
  client : ad.entry.entryClient = true
  long : elem.tooShort = false
  sta : ad.opMode = .sta

theorem peerPairMsg3Action_of_ready {elem : Elem} (h : ReadyForMsg3 ad elem) :
    peerPairMsg3Action C env ad elem =
      (peerWpaMessageSanity C env ad elem.pkt .pairMsg3).andThen
        (pairMsg3Passed C env elem.pkt) := by
  rw [peerPairMsg3Action, h.client, h.long, if_neg (by decide), if_neg (by decide), h.sta]

theorem ready_of_accepted_msg3 {elem : Elem}
    (h : (peerPairMsg3Action C env ad elem).verdict = .accepted) : ReadyForMsg3 ad elem := by
  rw [peerPairMsg3Action] at h
  split_ifs at h with hclient hshort
  refine ⟨by simpa using hclient, by simpa using hshort, ?_⟩
  cases hop : ad.opMode with
  | sta => rfl
  | ap =>
    rw [hop] at h
    exact nomatch h

/-- **Message 3: any other element of its length is accepted, with the same outcome.** -/
theorem peerPairMsg3Action_withKeyData {elem : Elem} (hC : C.AesInverse) (henv : env.allocs)
    (hwpa2 : ad.entry.authMode.bWPA2 = true)
    (h : (peerPairMsg3Action C env ad elem).verdict = .accepted) {body body' rest : List UInt8}
    (hplain : decipherKeyData C ad.entry.ptk elem.pkt = rsnElement body ++ rest)
    (hlt : (rsnElement body ++ rest).length < 2 ^ 16) (hbody : body.length ≤ 255)
    (hlen : body'.length = body.length) (behind : List UInt8) :
    let pkt := elem.pkt.withKeyData C ad.entry.ptk elem.pkt.bodyLen elem.pkt.keyDataLen
      (encipherKeyData C ad.entry.ptk elem.pkt (rsnElement body' ++ rest) ++ behind)
    decipherKeyData C ad.entry.ptk pkt = rsnElement body' ++ rest ∧
      peerPairMsg3Action C env ad { elem with pkt } = peerPairMsg3Action C env ad elem := by
  intro pkt
  have hlen' : (rsnElement body' ++ rest).length = (rsnElement body ++ rest).length := by
    simp only [rsnElement, List.length_append, List.length_cons, hlen]
  have hplain' : decipherKeyData C ad.entry.ptk pkt = rsnElement body' ++ rest :=
    encipherKeyData_spec hC hplain hlen' hlt behind elem.pkt.bodyLen
  refine ⟨hplain', ?_⟩
  have hready := ready_of_accepted_msg3 h
  rw [peerPairMsg3Action_of_ready hready] at h ⊢
  obtain ⟨halloc, hreplay, hmic⟩ := passed_of_failure_eq_none (failure_eq_none_of_accepted h)
  have hready' : ReadyForMsg3 ad { elem with pkt } := ⟨hready.client, hready.long, hready.sta⟩
  have hmic' : micOk C .pairMsg3 ad.entry.ptk pkt = true := micOk_of_signed rfl
  have hkeyData : peerWpaKeyData C env ad pkt .pairMsg3 =
      peerWpaKeyData C env ad elem.pkt .pairMsg3 := by
    rw [peerWpaKeyData, peerWpaKeyData, hwpa2, keyDataOf_pairMsg3 henv, keyDataOf_pairMsg3 henv,
      hplain, hplain', write_zero, write_zero, hlen']
    by_cases hnone : elem.pkt.keyDataLen = 0
    · rw [if_pos hnone, if_pos (show pkt.keyDataLen = 0 from hnone)]
    · rw [if_neg hnone, if_neg (show ¬ pkt.keyDataLen = 0 from hnone)]
      exact rtmpParseEapolKeyData_congr _ (parseKde_rsnElement rest _ hlen hbody _ {})
  rw [peerPairMsg3Action_of_ready hready']
  refine congrArg (Sanity.andThen · (pairMsg3Passed C env elem.pkt)) ?_
  have hreplay' : replayOk .pairMsg3 pkt.replayCounter ad.entry.rCounter = true := hreplay
  rw [peerWpaMessageSanity, peerWpaMessageSanity, hreplay, hreplay', hmic, hmic', hkeyData]

end

/-! ## 4. Both messages -/

namespace Example

/-- An access point that has sent message 1. -/
def msg1Sender : Adapter :=
  { station with
    opMode := .ap
    bssidNum := 1
    entry.wpaState := .ptkStart }

/-- A frame of WPA2 with AES, before its key data. -/
def pairwiseFrame (replayCounter : Octets lenKeyDescReplay) : EapolPacket where
  proVer := eapolVer
  proType := eapolKey
  type := wpa2KeyDesc
  keyInfo := { keyDescVer := keyDescAes, keyType := true, keyMic := true }
  replayCounter

/-- Message 2 with an element. -/
def msg2With (C : Crypto) (body : List UInt8) : Elem where
  addr2 := List.Vector.replicate 6 1
  msgLen := 200
  pkt := (pairwiseFrame (.zero 8)).withKeyData C
    (ptkOfMsg2 C plenty msg1Sender (pairwiseFrame (.zero 8))) (95 + 22) 22 (rsnElement body)

theorem accepted_msg2With (C : Crypto) (body : List UInt8) :
    (peerPairMsg2Action C plenty msg1Sender (msg2With C body)).verdict = .accepted := by
  have hready : ReadyForMsg2 msg1Sender (msg2With C body) :=
    ⟨rfl, rfl, by decide, rfl, by decide⟩
  have hmic : micOk C .pairMsg2 (ptkOfMsg2 C plenty msg1Sender (pairwiseFrame (.zero 8)))
      (msg2With C body).pkt = true := micOk_of_signed (signed_withKeyData _ _ _)
  have hreplay : replayOk .pairMsg2 (.zero 8) (.zero 8) = true := by decide
  rw [peerPairMsg2Action_of_ready hready]
  exact congrArg (fun s => (Sanity.andThen s (pairMsg2Passed C plenty)).verdict)
    (peerWpaMessageSanity_pairMsg2 rfl hreplay hmic)

/-- Message 3 with an element and no key. -/
def msg3With (C : Crypto) (body : List UInt8) : Elem where
  addr2 := List.Vector.replicate 6 1
  msgLen := 200
  pkt := (pairwiseFrame (counter 2)).withKeyData C supplicant.entry.ptk (95 + 30) 30
    (encipherKeyData C supplicant.entry.ptk (pairwiseFrame (counter 2)) (rsnElement body))

theorem decipher_msg3With {C : Crypto} (hC : C.AesInverse) {body : List UInt8}
    (hbody : body.length = 20) :
    decipherKeyData C supplicant.entry.ptk (msg3With C body).pkt = rsnElement body := by
  have hlen : (rsnElement body).length + 8 = 30 := by
    rw [rsnElement, List.length_cons, List.length_cons, hbody]
  have h := aesKeyUnwrap_aesKeyWrap hC (kekOf supplicant.entry.ptk) (rsnElement body) []
    (by rw [hlen]; decide)
  rwa [List.append_nil, hlen] at h

theorem accepted_msg3With {C : Crypto} (hC : C.AesInverse) {body : List UInt8}
    (hbody : body.length = 20) :
    (peerPairMsg3Action C plenty supplicant (msg3With C body)).verdict = .accepted := by
  have hready : ReadyForMsg3 supplicant (msg3With C body) := ⟨rfl, rfl, rfl⟩
  have hmic : micOk C .pairMsg3 supplicant.entry.ptk (msg3With C body).pkt = true :=
    micOk_of_signed (signed_withKeyData _ _ _)
  have hreplay : replayOk .pairMsg3 (msg3With C body).pkt.replayCounter
      supplicant.entry.rCounter = true := by
    change replayOk .pairMsg3 (counter 2) (counter 1) = true
    decide
  have hlen : (rsnElement body).length = 22 := by
    rw [rsnElement, List.length_cons, List.length_cons, hbody]
  have hparse : ∀ behind, parseKde (rsnElement body ++ behind) 22 0 {} = some {} := by
    intro behind
    have hdrop : (rsnElement body ++ behind).drop 0 =
        ieRsn :: UInt8.ofNat body.length :: (body ++ behind) := rfl
    rw [parseKde_element hdrop (by omega) (by decide) (by omega), hbody]
    exact parseKde_end (by decide)
  have hkeyData : peerWpaKeyData C plenty supplicant (msg3With C body).pkt .pairMsg3 =
      rtmpParseEapolKeyData supplicant
        (rsnElement body ++ (List.replicate maxLenOfRsnie 0 ++ plenty.heap).drop 22) 22 0 .pairMsg3
          true := by
    rw [peerWpaKeyData, show supplicant.entry.authMode.bWPA2 = true from rfl,
      keyDataOf_pairMsg3 (fun _ => rfl), decipher_msg3With hC hbody, write_zero, hlen]
    rfl
  have hfound : ∀ behind, rtmpParseEapolKeyData supplicant (rsnElement body ++ behind) 22 0 .pairMsg3
      true = some (wpaInstallSharedKey { supplicant with
        staCfg.gtk := Mem.write supplicant.staCfg.gtk 0 []
        staCfg.defaultKeyId := 0 } .encryption3Enabled 0 0 false
          (Mem.write supplicant.staCfg.gtk 0 []) 0) := by
    intro behind
    have hgtk : gtkOfKeyData (rsnElement body ++ behind) (22 : UInt8).toNat 0 true = some {} :=
      hparse behind
    rw [rtmpParseEapolKeyData, hgtk]
    rfl
  rw [peerPairMsg3Action_of_ready hready, peerWpaMessageSanity, hreplay, hmic, hkeyData, hfound]
  rfl

/-- The same element with TKIP as the pairwise cipher. -/
def tkipRsnBody : List UInt8 :=
  [1, 0, 0x00, 0x0F, 0xAC, 4, 1, 0, 0x00, 0x0F, 0xAC, 2, 1, 0, 0x00, 0x0F, 0xAC, 2, 0, 0]

end Example

end Mt7601.Wpa
