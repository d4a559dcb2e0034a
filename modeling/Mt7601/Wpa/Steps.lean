/-
# What one received frame can do

The inversion lemmas the results about runs rest on: what a frame that passes
`PeerWpaMessageSanity` has met and what the key data may have changed (`Passes`, `GroupKeyOnly`),
which handler `WpaEAPOLKeyAction` gives a frame to (`handlerOf`), and, for a station, the cases of
a whole step (`StaStep`).
-/
import Mathlib.Tactic.SplitIfs
import Mt7601.Wpa.Handlers

namespace Mt7601.Wpa

variable {C : Crypto} {env : Env} {ad ad' : Adapter} {elem : Elem} {pMsg : EapolPacket}
  {msgType : MsgType} {out : List Effect}

/-! ## 1. Passing the checks -/

/-- The effects that give a key to the hardware or open the port. -/
def Effect.grants : Effect → Bool
  | .addPairwiseKey _ => true
  | .addSharedKey _ _ => true
  | .staPortSecured => true
  | _ => false

/-- The effects that install a pairwise key, and with it start its packet number anew. -/
def Effect.installsPairwise : Effect → Bool
  | .addPairwiseKey _ => true
  | _ => false

/-- The frame has passed `PeerWpaMessageSanity`, which left `ad'` and `out`. -/
structure Passes (C : Crypto) (env : Env) (ad : Adapter) (pMsg : EapolPacket) (msgType : MsgType)
    (ad' : Adapter) (out : List Effect) : Prop where
  alloc : env.alloc .keyData = true
  replay : replayOk msgType pMsg.replayCounter ad.entry.rCounter = true
  mic : micOk C msgType ad.entry.ptk pMsg = true
  keyData : peerWpaKeyData C env ad pMsg msgType = some (ad', out)

/-- The handler's answer to a frame that failed: nothing has changed and nothing was granted. -/
structure Fails (ad : Adapter) (o : Outcome) : Prop where
  ad : o.ad = ad
  verdict : ∃ why, why ≠ .aNonce ∧ o.verdict = .rejected why
  out : ∀ e ∈ o.out, e.grants = false

/-- `PeerWpaMessageSanity` and what a handler makes of it. -/
theorem andThen_cases (handle : Adapter → Outcome) :
    Fails ad ((peerWpaMessageSanity C env ad pMsg msgType).andThen handle) ∨
    ∃ ad' out, Passes C env ad pMsg msgType ad' out ∧
      (peerWpaMessageSanity C env ad pMsg msgType).andThen handle =
        { handle ad' with out := out ++ (handle ad').out } := by
  unfold peerWpaMessageSanity
  by_cases halloc : env.alloc .keyData
  · by_cases hreplay : replayOk msgType pMsg.replayCounter ad.entry.rCounter
    · by_cases hmic : micOk C msgType ad.entry.ptk pMsg
      · simp only [halloc, hreplay, hmic, Bool.not_true, Bool.false_eq_true, if_false]
        cases hkey : peerWpaKeyData C env ad pMsg msgType with
        | none =>
          left
          exact ⟨rfl, ⟨.keyData, by decide, rfl⟩, by simp [Sanity.andThen]⟩
        | some r =>
          right
          exact ⟨r.1, r.2, ⟨halloc, hreplay, hmic, hkey⟩, rfl⟩
      · left
        simp only [halloc, hreplay, hmic, Bool.not_true, Bool.not_false, Bool.false_eq_true,
          if_false, if_true]
        exact ⟨rfl, ⟨.mic, by decide, rfl⟩, by simp [Sanity.andThen, Effect.grants]⟩
    · left
      simp only [halloc, hreplay, Bool.not_true, Bool.not_false, Bool.false_eq_true, if_false,
        if_true]
      exact ⟨rfl, ⟨.replayCounter, by decide, rfl⟩, by simp [Sanity.andThen, Effect.grants]⟩
  · left
    simp only [halloc, Bool.not_false, if_true]
    exact ⟨rfl, ⟨.noKeyDataBuffer, by decide, rfl⟩, by simp [Sanity.andThen]⟩

/-- A frame that passes reaches the rest of its handler. -/
theorem Passes.andThen (h : Passes C env ad pMsg msgType ad' out) (handle : Adapter → Outcome) :
    (peerWpaMessageSanity C env ad pMsg msgType).andThen handle =
      { handle ad' with out := out ++ (handle ad').out } := by
  unfold peerWpaMessageSanity
  simp only [h.alloc, h.replay, h.mic, h.keyData, Bool.not_true, Bool.false_eq_true, if_false]
  rfl

/-! ## 2. The key data -/

/-- Only the station's group key may differ: its octets, its index, and the shared keys. -/
def GroupKeyOnly (ad ad' : Adapter) : Prop :=
  ∃ gtk idx keys, ad' = { ad with
    staCfg.gtk := gtk
    staCfg.defaultKeyId := idx
    sharedKey := keys }

theorem GroupKeyOnly.refl (ad : Adapter) : GroupKeyOnly ad ad :=
  ⟨ad.staCfg.gtk, ad.staCfg.defaultKeyId, ad.sharedKey, rfl⟩

theorem wpaInstallSharedKey_frame (ad : Adapter) (groupCipher : WepStatus) (bssIdx keyIdx : UInt8) (bAE : Bool)
    (gtk : List UInt8) (gtkLen : Nat) :
    (∃ keys, (wpaInstallSharedKey ad groupCipher bssIdx keyIdx bAE gtk gtkLen).1 =
      { ad with sharedKey := keys }) ∧
    ∀ e ∈ (wpaInstallSharedKey ad groupCipher bssIdx keyIdx bAE gtk gtkLen).2,
      e.installsPairwise = false := by
  unfold wpaInstallSharedKey
  split_ifs with h
  · exact ⟨⟨ad.sharedKey, rfl⟩, by simp⟩
  · refine ⟨⟨_, rfl⟩, ?_⟩
    intro e he
    dsimp only at he
    split_ifs at he
    · rw [List.mem_singleton] at he
      rw [he]
      rfl
    · cases he

theorem rtmpParseEapolKeyData_frame {keyData : List UInt8} {keyDataLen : UInt8}
    {groupKeyIndex : Nat} {bWPA2 : Bool}
    (h : rtmpParseEapolKeyData ad keyData keyDataLen groupKeyIndex msgType bWPA2 =
      some (ad', out)) :
    GroupKeyOnly ad ad' ∧ ∀ e ∈ out, e.installsPairwise = false := by
  have hsame : some (ad, ([] : List Effect)) = some (ad', out) →
      GroupKeyOnly ad ad' ∧ ∀ e ∈ out, e.installsPairwise = false := by
    intro heq
    cases heq
    exact ⟨.refl _, by simp⟩
  unfold rtmpParseEapolKeyData at h
  split at h
  · exact hsame h
  · split at h
    · cases h
    · split at h
      · cases h
      · split at h
        · exact hsame h
        · obtain ⟨⟨keys, hkeys⟩, hout⟩ := wpaInstallSharedKey_frame _ _ _ _ _ _ _
          rw [Option.some.injEq, Prod.ext_iff] at h
          obtain ⟨hfst, hsnd⟩ := h
          rw [hkeys] at hfst
          refine ⟨⟨_, _, keys, hfst.symm⟩, ?_⟩
          intro e he
          exact hout e (hsnd ▸ he)

theorem peerWpaKeyData_frame (h : peerWpaKeyData C env ad pMsg msgType = some (ad', out)) :
    GroupKeyOnly ad ad' ∧ ∀ e ∈ out, e.installsPairwise = false := by
  have hsame : some (ad, ([] : List Effect)) = some (ad', out) →
      GroupKeyOnly ad ad' ∧ ∀ e ∈ out, e.installsPairwise = false := by
    intro heq
    cases heq
    exact ⟨.refl _, by simp⟩
  unfold peerWpaKeyData at h
  dsimp only at h
  split at h
  · exact hsame h
  · split at h
    · exact hsame h
    · exact rtmpParseEapolKeyData_frame h

/-- Message 1 has no key data that is looked at. -/
theorem peerWpaKeyData_pairMsg1 : peerWpaKeyData C env ad pMsg .pairMsg1 = some (ad, []) := by
  unfold peerWpaKeyData keyDataOf
  simp

/-- Nor have the answers of a supplicant but message 2. -/
theorem peerWpaKeyData_pairMsg4 : peerWpaKeyData C env ad pMsg .pairMsg4 = some (ad, []) := by
  unfold peerWpaKeyData keyDataOf
  simp

theorem peerWpaKeyData_groupMsg2 : peerWpaKeyData C env ad pMsg .groupMsg2 = some (ad, []) := by
  unfold peerWpaKeyData keyDataOf
  simp

/-! ## 3. Which handler a frame is given to -/

/-- The branches of `WpaEAPOLKeyAction` that do something. -/
inductive Handler
  | pairMsg1
  | pairMsg2
  | pairMsg3
  | pairMsg4
  | groupMsg1
  | groupMsg2
  | counterMeasure
  | groupRekey
  | pairwiseRekey
  deriving DecidableEq, Repr

def Handler.run (C : Crypto) (env : Env) (ad : Adapter) (elem : Elem) : Handler → Outcome
  | .pairMsg1 => peerPairMsg1Action C env ad elem
  | .pairMsg2 => peerPairMsg2Action C env ad elem
  | .pairMsg3 => peerPairMsg3Action C env ad elem
  | .pairMsg4 => peerPairMsg4Action C env ad elem
  | .groupMsg1 => peerGroupMsg1Action C env ad elem
  | .groupMsg2 => peerGroupMsg2Action C env ad elem
  | .counterMeasure => { ad, out := [.counterMeasure] }
  | .groupRekey =>
    { ad := (groupKeyRequest C env ad).1, out := (groupKeyRequest C env ad).2 }
  | .pairwiseRekey =>
    { ad := (pairwiseKeyRequest C env ad).1, out := (pairwiseKeyRequest C env ad).2 }

/-- The handler of a frame from the authenticator. -/
def ackHandler (info : KeyInfo) : Option Handler :=
  if !info.secure ∧ !info.request ∧ !info.error ∧ info.keyType = pairwiseKeyType then
    if !info.keyMic then some .pairMsg1 else some .pairMsg3
  else if info.secure ∧ info.keyMic ∧ !info.request ∧ !info.error then
    if info.keyType = pairwiseKeyType then some .pairMsg3 else some .groupMsg1
  else none

/-- The handler of a frame from the supplicant. -/
def noAckHandler (opMode : OpMode) (info : KeyInfo) (keyDataLen : UInt16) : Option Handler :=
  if opMode = .ap ∧ info.keyMic ∧ info.request ∧ info.error then some .counterMeasure
  else if !info.request ∧ !info.error ∧ info.keyMic then
    if !info.secure ∧ info.keyType = pairwiseKeyType then
      if keyDataLen = 0 then some .pairMsg4 else some .pairMsg2
    else if info.secure ∧ info.keyType = pairwiseKeyType then some .pairMsg4
    else if info.secure ∧ info.keyType = groupKeyType then some .groupMsg2
    else none
  else if opMode = .ap ∧ info.request ∧ !info.error then
    if info.keyType = groupKeyType then some .groupRekey else some .pairwiseRekey
  else none

/-- The handler `WpaEAPOLKeyAction` gives the frame to. -/
def handlerOf (ad : Adapter) (elem : Elem) : Option Handler :=
  if !wpaEapolKeyAdmits ad elem then none
  else if elem.pkt.keyInfo.keyAck then ackHandler elem.pkt.keyInfo
  else noAckHandler ad.opMode elem.pkt.keyInfo elem.pkt.keyDataLen

/-- **`WpaEAPOLKeyAction` runs the handler of the frame**, if the frame has one. -/
theorem wpaEapolKeyAction_eq :
    wpaEapolKeyAction C env ad elem =
      match handlerOf ad elem with
      | none => { ad }
      | some h => h.run C env ad elem := by
  unfold wpaEapolKeyAction handlerOf
  split_ifs with hadmits hack
  · rfl
  · unfold wpaEapolKeyAck ackHandler
    dsimp only
    split_ifs <;> rfl
  · unfold wpaEapolKeyNoAck noAckHandler
    dsimp only
    split_ifs <;> rfl

theorem wpaEapolKeyAction_of_handlerOf {h : Handler} (hh : handlerOf ad elem = some h) :
    wpaEapolKeyAction C env ad elem = h.run C env ad elem := by
  rw [wpaEapolKeyAction_eq, hh]

/-! ## 4. A step of a station -/

/-- The frame got past `PeerWpaMessageSanity`, whatever became of it then. -/
def Verdict.passed : Verdict → Bool
  | .accepted => true
  | .outOfMemory => true
  | .rejected .aNonce => true
  | _ => false

/-- The variables of the handshake are as they were. -/
structure SameHandshake (entry entry' : MacTableEntry) : Prop where
  ptk : entry'.ptk = entry.ptk
  aNonce : entry'.aNonce = entry.aNonce
  rCounter : entry'.rCounter = entry.rCounter
  wpaState : entry'.wpaState = entry.wpaState

/-- What no frame changes in a station. -/
structure StaConfig where
  opMode : OpMode
  currentAddress : MacAddr
  pmk : Octets 32
  groupCipher : WepStatus
  rsnIe : { l : List UInt8 // l.length ≤ 255 }
  entryClient : Bool
  addr : MacAddr
  authMode : AuthMode
  wepStatus : WepStatus
  sst : Sst

def Adapter.config (ad : Adapter) : StaConfig where
  opMode := ad.opMode
  currentAddress := ad.currentAddress
  pmk := ad.staCfg.pmk
  groupCipher := ad.staCfg.groupCipher
  rsnIe := ad.staCfg.rsnIe
  entryClient := ad.entry.entryClient
  addr := ad.entry.addr
  authMode := ad.entry.authMode
  wepStatus := ad.entry.wepStatus
  sst := ad.entry.sst

/-- How many of the effects install a pairwise key. -/
def pairwiseInstalls (out : List Effect) : Nat :=
  (out.filter Effect.installsPairwise).length

theorem pairwiseInstalls_append (out out' : List Effect) :
    pairwiseInstalls (out ++ out') = pairwiseInstalls out + pairwiseInstalls out' := by
  simp [pairwiseInstalls]

theorem pairwiseInstalls_eq_zero (h : ∀ e ∈ out, e.installsPairwise = false) :
    pairwiseInstalls out = 0 := by
  rw [pairwiseInstalls, List.length_eq_zero_iff, List.filter_eq_nil_iff]
  intro e he
  rw [h e he]
  exact Bool.false_ne_true

theorem installsPairwise_of_grants {e : Effect} (h : e.grants = false) :
    e.installsPairwise = false := by
  cases e with
  | addPairwiseKey key => exact h
  | _ => rfl

/-- What one received frame can do to the variables of the handshake. -/
inductive StaChange (C : Crypto) (env : Env) (ad : Adapter) (elem : Elem) (o : Outcome) : Prop
  | quiet (same : SameHandshake ad.entry o.ad.entry) (out : ∀ e ∈ o.out, e.grants = false)
      (handler : o.verdict.passed = true →
        handlerOf ad elem ≠ some .pairMsg3 ∧ handlerOf ad elem ≠ some .groupMsg1)
  | pairMsg1 (handler : handlerOf ad elem = some .pairMsg1) (passed : o.verdict.passed = true)
      (replay : replayOkSupplicant elem.pkt.replayCounter ad.entry.rCounter = true)
      (entry : o.ad.entry = { ad.entry with
        rCounter := elem.pkt.replayCounter
        aNonce := elem.pkt.keyNonce
        sNonce := env.random
        ptk := wpaDerivePtk C env ad.staCfg.pmk elem.pkt.keyNonce ad.entry.addr env.random
          ad.currentAddress
        wpaState := .ptkInitNegotiating })
      (out : ∀ e ∈ o.out, e.grants = false)
  | pairMsg3 (handler : handlerOf ad elem = some .pairMsg3) (passed : o.verdict.passed = true)
      (replay : replayOkSupplicant elem.pkt.replayCounter ad.entry.rCounter = true)
      (mic : micOk C .pairMsg3 ad.entry.ptk elem.pkt = true)
      (ptk : o.ad.entry.ptk = ad.entry.ptk) (aNonce : o.ad.entry.aNonce = ad.entry.aNonce)
      (rCounter : o.ad.entry.rCounter = elem.pkt.replayCounter)
      (state : (o.ad.entry.wpaState = ad.entry.wpaState ∧ pairwiseInstalls o.out = 0) ∨
        (elem.pkt.keyNonce = ad.entry.aNonce ∧ o.ad.entry.wpaState = .ptkInitDone ∧
          pairwiseInstalls o.out ≤ 1))
  | groupMsg1 (handler : handlerOf ad elem = some .groupMsg1) (passed : o.verdict.passed = true)
      (replay : replayOkSupplicant elem.pkt.replayCounter ad.entry.rCounter = true)
      (mic : micOk C .groupMsg1 ad.entry.ptk elem.pkt = true)
      (ptk : o.ad.entry.ptk = ad.entry.ptk) (aNonce : o.ad.entry.aNonce = ad.entry.aNonce)
      (rCounter : o.ad.entry.rCounter = elem.pkt.replayCounter)
      (wpaState : o.ad.entry.wpaState = ad.entry.wpaState)
      (out : pairwiseInstalls o.out = 0)
  | pairMsg4 (handler : handlerOf ad elem = some .pairMsg4) (passed : o.verdict.passed = true)
      (state : WpaState.ptkInitNegotiating ≤ ad.entry.wpaState)
      (replay : elem.pkt.replayCounter = ad.entry.rCounter)
      (mic : micOk C .pairMsg4 ad.entry.ptk elem.pkt = true)
      (ptk : o.ad.entry.ptk = ad.entry.ptk) (aNonce : o.ad.entry.aNonce = ad.entry.aNonce)
      (rCounter : o.ad.entry.rCounter = ad.entry.rCounter ∨
        o.ad.entry.rCounter = addOneTo64BitVar ad.entry.rCounter)
      (wpaState : o.ad.entry.wpaState = .ptkInitDone)
      (out : pairwiseInstalls o.out ≤ 1)

/-- **What one received frame can do to a station.** -/
structure StaStep (C : Crypto) (env : Env) (ad : Adapter) (elem : Elem) (o : Outcome) : Prop where
  config : o.ad.config = ad.config
  change : StaChange C env ad elem o

theorem StaStep.ignored (ad : Adapter) : StaStep C env ad elem { ad } :=
  ⟨rfl, .quiet ⟨rfl, rfl, rfl, rfl⟩ (by simp) (by intro h; cases h)⟩

theorem Fails.staStep {o : Outcome} (h : Fails ad o) : StaStep C env ad elem o := by
  obtain ⟨had, ⟨why, hwhy, hverdict⟩, hout⟩ := h
  refine ⟨by rw [had], .quiet ?_ hout ?_⟩
  · rw [had]
    exact ⟨rfl, rfl, rfl, rfl⟩
  · intro hpass
    rw [hverdict] at hpass
    cases why with
    | aNonce => exact absurd rfl hwhy
    | _ => cases hpass

theorem peerPairMsg1Action_staStep (hsta : ad.opMode = .sta)
    (hh : handlerOf ad elem = some .pairMsg1) :
    StaStep C env ad elem (peerPairMsg1Action C env ad elem) := by
  unfold peerPairMsg1Action
  rw [hsta]
  split_ifs
  · exact .ignored ad
  · exact .ignored ad
  · rcases andThen_cases (C := C) (pairMsg1Passed C env elem.pkt) with hf | ⟨ad', out, hp, heq⟩
    · exact hf.staStep
    · obtain ⟨rfl, rfl⟩ : ad = ad' ∧ ([] : List Effect) = out := by
        have := hp.keyData
        rw [peerWpaKeyData_pairMsg1] at this
        cases this
        exact ⟨rfl, rfl⟩
      rw [heq]
      unfold pairMsg1Passed
      dsimp only
      split_ifs
      · exact ⟨rfl, .pairMsg1 hh rfl hp.replay rfl (by simp)⟩
      · exact ⟨rfl, .pairMsg1 hh rfl hp.replay rfl (by simp [Effect.grants])⟩

/-- Installing the pairwise key keeps the handshake, and gives the hardware one key at most. -/
theorem wpaInstallPairwiseKey_frame (ad : Adapter) (bAE : Bool) :
    (∃ key, (wpaInstallPairwiseKey ad bAE).1 = { ad with entry.pairwiseKey := key }) ∧
      pairwiseInstalls (wpaInstallPairwiseKey ad bAE).2 ≤ 1 := by
  unfold wpaInstallPairwiseKey
  split
  · exact ⟨⟨_, rfl⟩, Nat.zero_le 1⟩
  · exact ⟨⟨_, rfl⟩, Nat.le_refl 1⟩

/-- What `PeerPairMsg3Action` leaves when it has installed the key. -/
theorem pairMsg3Install_frame (ad : Adapter) :
    (∃ key keys cfg port filter, (pairMsg3Install ad).1 = { ad with
        staCfg := { ad.staCfg with ptk := ad.entry.ptk, portSecured := cfg }
        sharedKey := keys
        entry := { ad.entry with
          wpaState := .ptkInitDone
          pairwiseKey := key
          portSecured := port
          privacyFilter := filter } }) ∧
      pairwiseInstalls (pairMsg3Install ad).2 ≤ 1 := by
  unfold pairMsg3Install
  obtain ⟨⟨key, hkey⟩, hout⟩ := wpaInstallPairwiseKey_frame
    { ad with entry.wpaState := .ptkInitDone, staCfg.ptk := ad.entry.ptk } false
  dsimp only at hkey hout ⊢
  rw [hkey]
  dsimp only
  split_ifs
  · refine ⟨⟨_, _, _, _, _, rfl⟩, ?_⟩
    rw [pairwiseInstalls_append]
    exact hout
  · exact ⟨⟨_, _, _, _, _, rfl⟩, hout⟩

theorem peerPairMsg3Action_staStep (hsta : ad.opMode = .sta)
    (hh : handlerOf ad elem = some .pairMsg3) :
    StaStep C env ad elem (peerPairMsg3Action C env ad elem) := by
  unfold peerPairMsg3Action
  rw [hsta]
  split_ifs
  · exact .ignored ad
  · exact .ignored ad
  · rcases andThen_cases (C := C) (pairMsg3Passed C env elem.pkt) with hf | ⟨ad', out, hp, heq⟩
    · exact hf.staStep
    · obtain ⟨⟨gtk, idx, keys, rfl⟩, hout⟩ := peerWpaKeyData_frame hp.keyData
      have hzero := pairwiseInstalls_eq_zero hout
      rw [heq]
      unfold pairMsg3Passed
      dsimp only
      split_ifs with hnonce halloc
      · refine ⟨rfl, .pairMsg3 hh rfl hp.replay hp.mic rfl rfl rfl (.inl ⟨rfl, ?_⟩)⟩
        simpa using hzero
      · refine ⟨rfl, .pairMsg3 hh rfl hp.replay hp.mic rfl rfl rfl (.inl ⟨rfl, ?_⟩)⟩
        simpa using hzero
      · obtain ⟨⟨key, keys', cfg, port, filter, hinst⟩, hcount⟩ := pairMsg3Install_frame
          { ad with
            staCfg.gtk := gtk
            staCfg.defaultKeyId := idx
            sharedKey := keys
            entry.rCounter := elem.pkt.replayCounter }
        dsimp only at hinst hcount ⊢
        rw [hinst]
        refine ⟨rfl, .pairMsg3 hh rfl hp.replay hp.mic rfl rfl rfl (.inr ⟨?_, rfl, ?_⟩)⟩
        · exact (Decidable.not_not.1 hnonce).symm
        · rw [pairwiseInstalls_append, pairwiseInstalls_append, hzero, Nat.zero_add]
          exact hcount

/-- A frame that passes, in a station, runs the rest of `PeerPairMsg3Action`. -/
theorem peerPairMsg3Action_of_passes (hsta : ad.opMode = .sta)
    (hclient : ad.entry.entryClient = true) (hlen : elem.tooShort = false)
    (hp : Passes C env ad elem.pkt .pairMsg3 ad' out) :
    peerPairMsg3Action C env ad elem =
      { pairMsg3Passed C env elem.pkt ad' with
        out := out ++ (pairMsg3Passed C env elem.pkt ad').out } := by
  unfold peerPairMsg3Action
  simp only [hclient, hlen, hsta, Bool.not_true, Bool.false_eq_true, if_false]
  exact hp.andThen _

theorem peerGroupMsg1Action_staStep (hsta : ad.opMode = .sta)
    (hh : handlerOf ad elem = some .groupMsg1) :
    StaStep C env ad elem (peerGroupMsg1Action C env ad elem) := by
  unfold peerGroupMsg1Action
  rw [hsta]
  split_ifs
  · exact .ignored ad
  · rcases andThen_cases (C := C)
      (groupMsg1Passed C env ad.staCfg.defaultKeyId elem.pkt) with hf | ⟨ad', out, hp, heq⟩
    · exact hf.staStep
    · obtain ⟨⟨gtk, idx, keys, rfl⟩, hout⟩ := peerWpaKeyData_frame hp.keyData
      have hzero := pairwiseInstalls_eq_zero hout
      rw [heq]
      unfold groupMsg1Passed
      dsimp only
      split_ifs
      · refine ⟨rfl, .groupMsg1 hh rfl hp.replay hp.mic rfl rfl rfl rfl ?_⟩
        simpa using hzero
      · refine ⟨rfl, .groupMsg1 hh rfl hp.replay hp.mic rfl rfl rfl rfl ?_⟩
        rw [pairwiseInstalls_append, hzero]
        rfl

/-- In a station `WPAStart2WayGroupHS` can only count. -/
theorem wpaStart2WayGroupHS_sta (C : Crypto) (env : Env) (ad : Adapter) (hsta : ad.opMode = .sta) :
    (∃ counter, (wpaStart2WayGroupHS C env ad).1 = { ad with entry.rCounter := counter } ∧
      (counter = ad.entry.rCounter ∨ counter = addOneTo64BitVar ad.entry.rCounter)) ∧
    ∀ e ∈ (wpaStart2WayGroupHS C env ad).2, e.grants = false := by
  unfold wpaStart2WayGroupHS
  split
  · exact ⟨⟨_, rfl, .inl rfl⟩, by simp⟩
  · split
    · split_ifs
      · exact ⟨⟨_, rfl, .inl rfl⟩, by simp⟩
      · exact ⟨⟨_, rfl, .inr rfl⟩, by simp [Effect.grants]⟩
      · exact ⟨⟨_, rfl, .inr rfl⟩, by simp⟩
    · rename_i hap
      rw [hsta] at hap
      cases hap

theorem peerPairMsg4Action_staStep (hsta : ad.opMode = .sta)
    (hh : handlerOf ad elem = some .pairMsg4) :
    StaStep C env ad elem (peerPairMsg4Action C env ad elem) := by
  unfold peerPairMsg4Action
  split_ifs with hclient hshort hstate hidx
  · exact .ignored ad
  · exact .ignored ad
  · exact .ignored ad
  · exact .ignored ad
  · rcases andThen_cases (C := C) (pairMsg4Passed C env) with hf | ⟨ad', out, hp, heq⟩
    · exact hf.staStep
    · obtain ⟨rfl, rfl⟩ : ad = ad' ∧ ([] : List Effect) = out := by
        have := hp.keyData
        rw [peerWpaKeyData_pairMsg4] at this
        cases this
        exact ⟨rfl, rfl⟩
      have hreplay : elem.pkt.replayCounter = ad.entry.rCounter := by
        simpa [replayOk] using hp.replay
      have hneg : WpaState.ptkInitNegotiating ≤ ad.entry.wpaState := Nat.le_of_not_lt hstate
      obtain ⟨⟨key, hkey⟩, hcount⟩ := wpaInstallPairwiseKey_frame ad true
      rw [heq]
      unfold pairMsg4Passed
      dsimp only
      rw [hkey]
      dsimp only
      split_ifs
      · have hcache : cachePmk C env { ad with
            entry := { ad.entry with
              pairwiseKey := key
              privacyFilter := .acceptAll
              wpaState := .ptkInitDone
              portSecured := .secured
              gtkState := .established } } = _ := if_neg (by simp [hsta])
        rw [hcache]
        refine ⟨rfl, .pairMsg4 hh rfl hneg hreplay hp.mic rfl rfl (.inl rfl) rfl ?_⟩
        rw [List.nil_append, pairwiseInstalls_append]
        exact hcount
      · obtain ⟨⟨counter, hgroup, hctr⟩, hquiet⟩ := wpaStart2WayGroupHS_sta C env { ad with
            entry := { ad.entry with
              pairwiseKey := key
              privacyFilter := .acceptAll
              wpaState := .ptkInitDone
              portSecured := .secured } } hsta
        rw [hgroup]
        refine ⟨rfl, .pairMsg4 hh rfl hneg hreplay hp.mic rfl rfl hctr rfl ?_⟩
        have hzero := pairwiseInstalls_eq_zero fun e he => installsPairwise_of_grants (hquiet e he)
        rw [List.nil_append, pairwiseInstalls_append, hzero]
        exact hcount

theorem peerPairMsg2Action_staStep (hsta : ad.opMode = .sta) :
    StaStep C env ad elem (peerPairMsg2Action C env ad elem) := by
  unfold peerPairMsg2Action
  split
  · exact .ignored ad
  · split
    · exact .ignored ad
    · split
      · exact .ignored ad
      · split
        · exact ⟨rfl, .quiet ⟨rfl, rfl, rfl, rfl⟩ (by simp) (by intro h; cases h)⟩
        · rename_i hap
          rw [hsta] at hap
          cases hap

theorem peerGroupMsg2Action_staStep (hh : handlerOf ad elem = some .groupMsg2) :
    StaStep C env ad elem (peerGroupMsg2Action C env ad elem) := by
  unfold peerGroupMsg2Action
  split_ifs
  · exact .ignored ad
  · exact .ignored ad
  · exact .ignored ad
  · exact .ignored ad
  · rcases andThen_cases (C := C) groupMsg2Passed with hf | ⟨ad', out, hp, heq⟩
    · exact hf.staStep
    · obtain ⟨rfl, rfl⟩ : ad = ad' ∧ ([] : List Effect) = out := by
        have := hp.keyData
        rw [peerWpaKeyData_groupMsg2] at this
        cases this
        exact ⟨rfl, rfl⟩
      rw [heq]
      refine ⟨rfl, .quiet ⟨rfl, rfl, rfl, rfl⟩ ?_ ?_⟩
      · intro e he
        simp only [groupMsg2Passed, List.nil_append, List.mem_singleton] at he
        rw [he]
        split_ifs <;> rfl
      · rw [hh]
        exact fun _ => ⟨by decide, by decide⟩

/-- A station never has a handler of an access point. -/
theorem handlerOf_sta (hsta : ad.opMode = .sta) (elem : Elem) :
    handlerOf ad elem ≠ some .counterMeasure ∧ handlerOf ad elem ≠ some .groupRekey ∧
      handlerOf ad elem ≠ some .pairwiseRekey := by
  unfold handlerOf
  rw [hsta]
  unfold ackHandler noAckHandler
  split_ifs <;> simp_all

/-- **The cases of a step are all there are.** -/
theorem wpaEapolKeyAction_staStep (hsta : ad.opMode = .sta) :
    StaStep C env ad elem (wpaEapolKeyAction C env ad elem) := by
  obtain ⟨hcm, hgr, hpr⟩ := handlerOf_sta hsta elem
  rw [wpaEapolKeyAction_eq]
  cases hh : handlerOf ad elem with
  | none => exact .ignored ad
  | some h =>
    rw [hh] at hcm hgr hpr
    cases h with
    | pairMsg1 => exact peerPairMsg1Action_staStep hsta hh
    | pairMsg2 => exact peerPairMsg2Action_staStep hsta
    | pairMsg3 => exact peerPairMsg3Action_staStep hsta hh
    | pairMsg4 => exact peerPairMsg4Action_staStep hsta hh
    | groupMsg1 => exact peerGroupMsg1Action_staStep hsta hh
    | groupMsg2 => exact peerGroupMsg2Action_staStep hh
    | counterMeasure => exact absurd rfl hcm
    | groupRekey => exact absurd rfl hgr
    | pairwiseRekey => exact absurd rfl hpr

end Mt7601.Wpa
