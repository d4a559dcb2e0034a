/-
# What a rejected frame leaves behind

A frame that a handler rejects -- for its replay counter, its integrity code, its key data or its
nonce -- should leave the handshake as it was. Two handlers store first and check later:
`PeerPairMsg2Action` stores the nonce of the frame and derives the PTK from it before
`PeerWpaMessageSanity` is asked, and `PeerPairMsg3Action` has the group key and the replay counter
of the frame stored before it compares the nonces. This module says exactly which rejected frames
change nothing.
-/
import Mt7601.Wpa.Supplicant

namespace Mt7601.Wpa

variable {C : Crypto} {env : Env} {ad ad' : Adapter} {elem : Elem} {out : List Effect}
  {o : Outcome} {why : Reject}

/-! ## 1. The state of a handshake -/

/-- The group key of the adapter, in either mode. -/
structure GroupKey where
  gtk : List UInt8
  defaultKeyId : UInt8
  sharedKey : List.Vector CipherKey 4
  mbssGtk : Octets 32
  mbssDefaultKeyId : UInt8

def Adapter.groupKey (ad : Adapter) : GroupKey where
  gtk := ad.staCfg.gtk
  defaultKeyId := ad.staCfg.defaultKeyId
  sharedKey := ad.sharedKey
  mbssGtk := ad.mbss.gtk
  mbssDefaultKeyId := ad.mbss.defaultKeyId

/-- The handshake is exactly as before. -/
structure HandshakeUnchanged (ad ad' : Adapter) : Prop where
  ptk : ad'.entry.ptk = ad.entry.ptk
  aNonce : ad'.entry.aNonce = ad.entry.aNonce
  sNonce : ad'.entry.sNonce = ad.entry.sNonce
  rCounter : ad'.entry.rCounter = ad.entry.rCounter
  wpaState : ad'.entry.wpaState = ad.entry.wpaState
  groupKey : ad'.groupKey = ad.groupKey

theorem HandshakeUnchanged.refl (ad : Adapter) : HandshakeUnchanged ad ad :=
  ⟨rfl, rfl, rfl, rfl, rfl, rfl⟩

/-- The PTK an access point derives from a message 2. -/
def msg2Ptk (C : Crypto) (env : Env) (ad : Adapter) (pMsg2 : EapolPacket) : Octets lenPtk :=
  wpaDerivePtk C env ad.mbss.pmk ad.entry.aNonce ad.mbss.bssid pMsg2.keyNonce ad.entry.addr

/-- What `PeerPairMsg2Action` has stored when it checks the frame. -/
def withMsg2 (C : Crypto) (env : Env) (ad : Adapter) (pMsg2 : EapolPacket) : Adapter :=
  { ad with
    entry.sNonce := pMsg2.keyNonce
    entry.ptk := msg2Ptk C env ad pMsg2 }

/-! ## 2. The ways to reject a frame -/

/-- The adapter after a frame was rejected: untouched; with the nonce and the PTK of a message 2;
or, after a message 3 that passed `PeerWpaMessageSanity` with another nonce, with its counter and
what its key data has brought. -/
inductive Rejection (C : Crypto) (env : Env) (ad : Adapter) (elem : Elem) (o : Outcome) : Prop
  | untouched (ad_eq : o.ad = ad) (not2 : handlerOf ad elem ≠ some .pairMsg2)
      (not3 : handlerOf ad elem = some .pairMsg3 →
        ∀ ad' out, ¬ Passes C env ad elem.pkt .pairMsg3 ad' out)
  | pairMsg2 (handler : handlerOf ad elem = some .pairMsg2)
      (ad_eq : o.ad = withMsg2 C env ad elem.pkt)
  | pairMsg3 (handler : handlerOf ad elem = some .pairMsg3) (ad' : Adapter) (out : List Effect)
      (passes : Passes C env ad elem.pkt .pairMsg3 ad' out)
      (nonce : elem.pkt.keyNonce ≠ ad.entry.aNonce)
      (ad_eq : o.ad = { ad' with entry.rCounter := elem.pkt.replayCounter })

/-- The rest of a handler never rejects but for the nonce. -/
theorem pairMsg3Passed_passed (pMsg3 : EapolPacket) :
    (pairMsg3Passed C env pMsg3 ad).verdict.passed = true := by
  unfold pairMsg3Passed
  dsimp only
  split_ifs <;> rfl

theorem Fails.passed_eq_false (h : Fails ad o) : o.verdict.passed = false := by
  obtain ⟨why, hwhy, hverdict⟩ := h.verdict
  rw [hverdict]
  cases why with
  | aNonce => exact absurd rfl hwhy
  | _ => rfl

/-- A handler whose rest does not reject leaves the adapter untouched when it rejects. -/
theorem andThen_rejected {msgType : MsgType} {handle : Adapter → Outcome}
    (hhandle : ∀ ad why, (handle ad).verdict ≠ .rejected why)
    (h : ((peerWpaMessageSanity C env ad elem.pkt msgType).andThen handle).verdict =
      .rejected why) :
    ((peerWpaMessageSanity C env ad elem.pkt msgType).andThen handle).ad = ad := by
  rcases andThen_cases handle with hf | ⟨ad', out, -, heq⟩
  · exact hf.ad
  · rw [heq] at h
    exact absurd h (hhandle ad' why)

theorem pairMsg1Passed_ne_rejected (pMsg1 : EapolPacket) (ad : Adapter) (why : Reject) :
    (pairMsg1Passed C env pMsg1 ad).verdict ≠ .rejected why := by
  unfold pairMsg1Passed
  dsimp only
  split_ifs <;> nofun

theorem pairMsg2Passed_ne_rejected (ad : Adapter) (why : Reject) :
    (pairMsg2Passed C env ad).verdict ≠ .rejected why := by
  unfold pairMsg2Passed
  dsimp only
  split_ifs <;> nofun

theorem pairMsg4Passed_ne_rejected (ad : Adapter) (why : Reject) :
    (pairMsg4Passed C env ad).verdict ≠ .rejected why := by
  unfold pairMsg4Passed
  dsimp only
  split_ifs <;> nofun

theorem groupMsg1Passed_ne_rejected (defaultKey : UInt8) (pGroup : EapolPacket) (ad : Adapter)
    (why : Reject) : (groupMsg1Passed C env defaultKey pGroup ad).verdict ≠ .rejected why := by
  unfold groupMsg1Passed
  dsimp only
  split_ifs <;> nofun

theorem groupMsg2Passed_ne_rejected (ad : Adapter) (why : Reject) :
    (groupMsg2Passed ad).verdict ≠ .rejected why := nofun

theorem peerPairMsg1Action_rejected
    (h : (peerPairMsg1Action C env ad elem).verdict = .rejected why) :
    (peerPairMsg1Action C env ad elem).ad = ad := by
  unfold peerPairMsg1Action at h ⊢
  split_ifs at h ⊢
  cases hmode : ad.opMode with
  | ap => rfl
  | sta =>
    simp only [hmode] at h
    exact andThen_rejected (pairMsg1Passed_ne_rejected elem.pkt) h

theorem peerGroupMsg1Action_rejected
    (h : (peerGroupMsg1Action C env ad elem).verdict = .rejected why) :
    (peerGroupMsg1Action C env ad elem).ad = ad := by
  unfold peerGroupMsg1Action at h ⊢
  split_ifs at h ⊢
  cases hmode : ad.opMode with
  | ap => rfl
  | sta =>
    simp only [hmode] at h
    exact andThen_rejected (groupMsg1Passed_ne_rejected _ elem.pkt) h

theorem peerPairMsg4Action_rejected
    (h : (peerPairMsg4Action C env ad elem).verdict = .rejected why) :
    (peerPairMsg4Action C env ad elem).ad = ad := by
  unfold peerPairMsg4Action at h ⊢
  split_ifs at h ⊢
  exact andThen_rejected pairMsg4Passed_ne_rejected h

theorem peerGroupMsg2Action_rejected
    (h : (peerGroupMsg2Action C env ad elem).verdict = .rejected why) :
    (peerGroupMsg2Action C env ad elem).ad = ad := by
  unfold peerGroupMsg2Action at h ⊢
  split_ifs at h ⊢
  exact andThen_rejected groupMsg2Passed_ne_rejected h

/-- `PeerPairMsg2Action` looks at a frame in an access point only, once it has stored it. -/
theorem peerPairMsg2Action_cases (C : Crypto) (env : Env) (ad : Adapter) (elem : Elem) :
    (peerPairMsg2Action C env ad elem).verdict = .ignored ∨
      peerPairMsg2Action C env ad elem =
        (peerWpaMessageSanity C env (withMsg2 C env ad elem.pkt) elem.pkt .pairMsg2).andThen
          (pairMsg2Passed C env) := by
  unfold peerPairMsg2Action
  split
  · exact .inl rfl
  · split
    · exact .inl rfl
    · split
      · exact .inl rfl
      · split
        · exact .inl rfl
        · split
          · exact .inl rfl
          · exact .inr rfl

/-- An access point keeps what it has stored of a message 2 it rejects. -/
theorem peerPairMsg2Action_rejected
    (h : (peerPairMsg2Action C env ad elem).verdict = .rejected why) :
    (peerPairMsg2Action C env ad elem).ad = withMsg2 C env ad elem.pkt := by
  rcases peerPairMsg2Action_cases C env ad elem with hignored | heq
  · rw [hignored] at h
    cases h
  · rw [heq] at h ⊢
    exact andThen_rejected pairMsg2Passed_ne_rejected h

/-- A station rejects a message 3 untouched, or for its nonce. -/
theorem peerPairMsg3Action_rejected (hh : handlerOf ad elem = some .pairMsg3)
    (h : (peerPairMsg3Action C env ad elem).verdict = .rejected why) :
    Rejection C env ad elem (peerPairMsg3Action C env ad elem) := by
  unfold peerPairMsg3Action at h ⊢
  split_ifs at h ⊢
  cases hmode : ad.opMode with
  | ap =>
    simp only [hmode] at h
    cases h
  | sta =>
    simp only [hmode] at h
    dsimp only
    rcases andThen_cases (pairMsg3Passed C env elem.pkt) with hf | ⟨ad', out, hp, heq⟩
    · refine .untouched hf.ad (by rw [hh]; decide) ?_
      intro _ ad' out hp
      have hpass := hf.passed_eq_false
      rw [hp.andThen] at hpass
      exact Bool.false_ne_true (hpass.symm.trans (pairMsg3Passed_passed elem.pkt))
    · obtain ⟨⟨gtk, idx, keys, had'⟩, -⟩ := peerWpaKeyData_frame hp.keyData
      have hnonce' : ad'.entry.aNonce = ad.entry.aNonce := by rw [had']
      rw [heq] at h ⊢
      unfold pairMsg3Passed at h ⊢
      dsimp only at h ⊢
      split_ifs at h ⊢ with hnonce
      exact .pairMsg3 hh ad' out hp (fun heq => hnonce (hnonce'.trans heq.symm)) rfl

/-- **How a frame is rejected.** -/
theorem wpaEapolKeyAction_rejected
    (h : (wpaEapolKeyAction C env ad elem).verdict = .rejected why) :
    Rejection C env ad elem (wpaEapolKeyAction C env ad elem) := by
  rw [wpaEapolKeyAction_eq] at h ⊢
  cases hh : handlerOf ad elem with
  | none =>
    rw [hh] at h
    cases h
  | some handler =>
    rw [hh] at h
    cases handler with
    | pairMsg1 =>
      exact .untouched (peerPairMsg1Action_rejected h) (by rw [hh]; decide) (by rw [hh]; nofun)
    | pairMsg2 => exact .pairMsg2 hh (peerPairMsg2Action_rejected h)
    | pairMsg3 => exact peerPairMsg3Action_rejected hh h
    | pairMsg4 =>
      exact .untouched (peerPairMsg4Action_rejected h) (by rw [hh]; decide) (by rw [hh]; nofun)
    | groupMsg1 =>
      exact .untouched (peerGroupMsg1Action_rejected h) (by rw [hh]; decide) (by rw [hh]; nofun)
    | groupMsg2 =>
      exact .untouched (peerGroupMsg2Action_rejected h) (by rw [hh]; decide) (by rw [hh]; nofun)
    | counterMeasure => cases h
    | groupRekey => cases h
    | pairwiseRekey => cases h

/-! ## 3. Which rejected frames change nothing -/

/-- The frame has nothing to store that is not there already: it is no message 2 with another nonce
or another PTK, and no message 3 that passes `PeerWpaMessageSanity` with another nonce and a new
counter or a new group key. -/
def storesNothingNew (C : Crypto) (env : Env) (ad : Adapter) (elem : Elem) : Prop :=
  (handlerOf ad elem = some .pairMsg2 →
    elem.pkt.keyNonce = ad.entry.sNonce ∧ msg2Ptk C env ad elem.pkt = ad.entry.ptk) ∧
  (handlerOf ad elem = some .pairMsg3 → elem.pkt.keyNonce ≠ ad.entry.aNonce →
    ∀ ad' out, Passes C env ad elem.pkt .pairMsg3 ad' out →
      elem.pkt.replayCounter = ad.entry.rCounter ∧ ad'.groupKey = ad.groupKey)

/-- **A rejected frame leaves the handshake as it was exactly when it stores nothing new.** -/
theorem rejected_unchanged_iff (h : (wpaEapolKeyAction C env ad elem).verdict = .rejected why) :
    HandshakeUnchanged ad (wpaEapolKeyAction C env ad elem).ad ↔
      storesNothingNew C env ad elem := by
  cases wpaEapolKeyAction_rejected h with
  | untouched had hnot2 hnot3 =>
    rw [had]
    constructor
    · intro _
      exact ⟨fun h2 => absurd h2 hnot2, fun h3 _ ad' out hp => absurd hp (hnot3 h3 ad' out)⟩
    · intro _
      exact .refl ad
  | pairMsg2 hh had =>
    rw [had]
    constructor
    · intro hsame
      refine ⟨fun _ => ⟨hsame.sNonce, hsame.ptk⟩, ?_⟩
      rw [hh]
      nofun
    · intro hnew
      obtain ⟨hnonce, hptk⟩ := hnew.1 hh
      exact ⟨hptk, rfl, hnonce, rfl, rfl, rfl⟩
  | pairMsg3 hh ad' out hp hnonce had =>
    obtain ⟨⟨gtk, idx, keys, rfl⟩, -⟩ := peerWpaKeyData_frame hp.keyData
    rw [had]
    constructor
    · intro hsame
      refine ⟨by rw [hh]; nofun, ?_⟩
      intro _ _ ad'' out' hp'
      have heq : some (_, out) = some (ad'', out') := hp.keyData.symm.trans hp'.keyData
      cases heq
      exact ⟨hsame.rCounter, hsame.groupKey⟩
    · intro hnew
      obtain ⟨hctr, hkey⟩ := hnew.2 hh hnonce _ out hp
      exact ⟨rfl, rfl, rfl, hctr, rfl, hkey⟩

namespace Example

/-- An access point that has sent message 1 to its one client. -/
def accessPoint : Adapter :=
  { station with
    opMode := .ap
    bssidNum := 1
    mbss.groupKeyWepStatus := .encryption3Enabled
    mbss.bssid := List.Vector.replicate 6 3
    entry.wpaState := .ptkStart
    entry.rCounter := counter 1 }

/-- A message 2 with the wrong counter: it is not even looked at for its code. -/
def staleMsg2 : Elem where
  addr2 := List.Vector.replicate 6 1
  msgLen := 153
  pkt := {
    proVer := eapolVer
    proType := eapolKey
    bodyLen := 117
    type := wpa2KeyDesc
    keyInfo := { keyMic := true, keyDescVer := keyDescAes, keyType := true }
    replayCounter := counter 9
    keyNonce := List.Vector.replicate 32 5
    keyDataLen := 22 }

theorem staleMsg2_rejected (C : Crypto) :
    (wpaEapolKeyAction C plenty accessPoint staleMsg2).verdict = .rejected .replayCounter := by
  rw [wpaEapolKeyAction_of_handlerOf (h := .pairMsg2) (by decide)]
  rfl

/-- The nonce of the rejected frame stays in the entry. -/
theorem not_rejected_unchanged :
    ¬ ∃ C : Crypto, (wpaEapolKeyAction C plenty accessPoint staleMsg2).verdict =
        .rejected .replayCounter →
      HandshakeUnchanged accessPoint (wpaEapolKeyAction C plenty accessPoint staleMsg2).ad := by
  rintro ⟨C, h⟩
  have hnonce := (h (staleMsg2_rejected C)).sNonce
  exact absurd hnonce (by decide : (List.Vector.replicate 32 5 : Octets 32) ≠ Octets.zero 32)

theorem rejected_unchanged_iff_staleMsg2 :
    HandshakeUnchanged accessPoint (wpaEapolKeyAction .driver plenty accessPoint staleMsg2).ad ↔
      storesNothingNew .driver plenty accessPoint staleMsg2 :=
  rejected_unchanged_iff (staleMsg2_rejected .driver)

end Example

end Mt7601.Wpa
