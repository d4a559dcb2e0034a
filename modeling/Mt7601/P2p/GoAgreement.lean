/-
# Who becomes the group owner: agreement

The devices do not agree as it is (`not_agrees`). The tie-breaker bit is drawn anew for every copy
of a request and no token is compared, so that the answer to one copy may meet a confirm that
belongs to another; a device that has started a request of its own takes a confirm as a client
whether it waits for one or not; two addresses of which neither is smaller in all octets are both
"not smaller"; and a device that has just sent a request drops the other's unread. In all other
runs they do (`agrees_of_stepsMeet`).
-/
import Mt7601.Lib.Run
import Mt7601.P2p.GoExchange

namespace Mt7601.P2p

/-! ## 1. What a device keeps -/

open GoWorld

theorem p2pSetWscRule_eq (cfg : GoConfig) (d : GoDevice) (e : GoPeer) :
    ∃ dpid configMethod, p2pSetWscRule cfg d e = { d with dpid, configMethod } := by
  unfold p2pSetWscRule
  split_ifs <;> exact ⟨_, _, rfl⟩

theorem p2pSetRule_eq (cfg : GoConfig) (d : GoDevice) (e : GoPeer) (t : Nat) :
    p2pSetRule cfg d e t =
      if wouldBeClient cfg.goIntentIdx t then formAsClient cfg d e else formAsGo cfg d e := by
  unfold p2pSetRule
  by_cases hclient : wouldBeClient cfg.goIntentIdx t
  · rw [if_pos hclient]
    rcases hclient with hlt | ⟨heq, htie⟩
    · rw [if_pos hlt]
    · rw [if_neg (by omega), if_neg (by omega), if_pos htie]
  · rw [if_neg hclient]
    unfold wouldBeClient at hclient
    rw [if_neg (by omega)]
    by_cases hgt : t / 2 < cfg.goIntentIdx
    · rw [if_pos hgt]
    · rw [if_neg hgt, if_neg (by omega)]

/-- **What `P2pSetRule` does** to a device, when the intent attribute makes it what it is to be. -/
structure SetsRule (go : Bool) (d : GoDevice) (e : GoPeer) (r : GoDevice × GoPeer) : Prop where
  connect : r.1.p2pConnectState = if go then .anyInFormationAsGo else .anyInFormationAsClient
  goUp : r.1.goUp = d.goUp
  cliUp : r.1.cliUp = d.cliUp
  client : r.1.client = d.client
  peer : r.2 = { e with rule := if go then .isClient else .isGo }

theorem setsRule_p2pSetRule {cfg : GoConfig} {go : Bool} {t : Nat}
    (hrule : wouldBeClient cfg.goIntentIdx t ↔ go = false) (d : GoDevice) (e : GoPeer) :
    SetsRule go d e (p2pSetRule cfg d e t) := by
  rw [p2pSetRule_eq]
  cases go with
  | true =>
    rw [if_neg (by simp [hrule])]
    obtain ⟨dpid, configMethod, heq⟩ := p2pSetWscRule_eq cfg
      { d with p2pConnectState := .anyInFormationAsGo } { e with rule := .isClient }
    unfold formAsGo
    rw [heq]
    exact ⟨rfl, rfl, rfl, rfl, rfl⟩
  | false =>
    rw [if_pos (by simp [hrule])]
    obtain ⟨dpid, configMethod, heq⟩ := p2pSetWscRule_eq cfg
      { d with p2pConnectState := .anyInFormationAsClient } { e with rule := .isGo }
    unfold formAsClient
    rw [heq]
    exact ⟨rfl, rfl, rfl, rfl, rfl⟩

/-- A device that is, or is not, to be group owner: what it has become fits, and it will not become
anything else by a confirm that it waits for. -/
structure Stands (go : Bool) (d : GoDevice) : Prop where
  asGo : d.p2pConnectState = .anyInFormationAsGo → go = true
  waits : d.AwaitsConfirm → d.p2pConnectState = .anyInFormationAsClient → go = false
  goUp : d.goUp = true → go = true
  cliUp : d.cliUp = true → go = false

/-- What a device with the intent `own` may send to one with the intent `peer`. -/
def Settles (own peer : Nat) (go : Bool) : GoFrame → Prop
  | .req tempIntent _ _ => tempIntent / 2 = own
  | .rsp .success tempIntent _ _ => wouldBeClient peer tempIntent ↔ go = true
  | _ => True

/-- What a device has done fits. -/
structure Fits (own peer : Nat) (go : Bool) (r : GoDevice × Option GoFrame) : Prop where
  stands : Stands go r.1
  settles : ∀ f ∈ r.2, Settles own peer go f

theorem Fits.quiet {own peer : Nat} {go : Bool} {d : GoDevice} (h : Stands go d) :
    Fits own peer go (d, none) :=
  ⟨h, nofun⟩

@[simp] theorem awaitsConfirm_iff (d : GoDevice) :
    d.AwaitsConfirm ↔ ∃ e, d.client = some e ∧ e.p2pClientState = .waitGoComfirm := by
  unfold GoDevice.AwaitsConfirm
  rw [Option.map_eq_some_iff]

@[simp] theorem hasRequestOut_iff (d : GoDevice) :
    d.HasRequestOut ↔ ∃ e, d.client = some e ∧ e.p2pClientState = .sentGoNegReq := by
  unfold GoDevice.HasRequestOut
  rw [Option.map_eq_some_iff]

/-- Nothing has changed that matters, and the device waits for a confirm only if it did before. -/
theorem Stands.of_eq {go : Bool} {d d' : GoDevice} (h : Stands go d)
    (hconnect : d'.p2pConnectState = d.p2pConnectState) (hgo : d'.goUp = d.goUp)
    (hcli : d'.cliUp = d.cliUp) (hwaits : d'.AwaitsConfirm → d.AwaitsConfirm) : Stands go d' where
  asGo hs := h.asGo (hconnect ▸ hs)
  waits hw hs := h.waits (hwaits hw) (hconnect ▸ hs)
  goUp hs := h.goUp (hgo ▸ hs)
  cliUp hs := h.cliUp (hcli ▸ hs)

/-- The rule has been set. -/
theorem Stands.of_setsRule {go : Bool} {d d' : GoDevice} {e : GoPeer} {r : GoDevice × GoPeer}
    (h : Stands go d) (hset : SetsRule go d e r)
    (hconnect : d'.p2pConnectState = r.1.p2pConnectState) (hgo : d'.goUp = r.1.goUp)
    (hcli : d'.cliUp = r.1.cliUp) : Stands go d' where
  asGo hs := by
    rw [hconnect, hset.connect] at hs
    cases go with
    | true => rfl
    | false => cases hs
  waits _ hs := by
    rw [hconnect, hset.connect] at hs
    cases go with
    | true => cases hs
    | false => rfl
  goUp hs := h.goUp (by rw [← hset.goUp, ← hgo, hs])
  cliUp hs := h.cliUp (by rw [← hset.cliUp, ← hcli, hs])

theorem settles_makeGoNegoReq {cfg : GoConfig} {peer : Nat} {go : Bool} (d : GoDevice)
    (randomB : UInt8) : Settles cfg.goIntentIdx peer go (p2pMakeGoNegoReq cfg d randomB) := by
  unfold p2pMakeGoNegoReq
  dsimp only [Settles]
  split_ifs <;> omega

theorem fits_startGroupForm {cfg : GoConfig} {peer : Nat} {go : Bool} {d : GoDevice} {e : GoPeer}
    (h : Stands go d)
    (hwaits : e.p2pClientState = .waitGoComfirm → d.AwaitsConfirm) (randomB : UInt8) :
    Fits cfg.goIntentIdx peer go (p2pStartGroupForm cfg d e randomB) := by
  unfold p2pStartGroupForm
  split_ifs with hstate
  · refine ⟨⟨nofun, ?_, h.goUp, h.cliUp⟩, ?_⟩
    · simp
    · intro f hf
      cases hf
      exact settles_makeGoNegoReq d randomB
  · refine .quiet (h.of_eq rfl rfl rfl fun hw => hwaits ?_)
    simpa using hw

theorem fits_startCommunicate {cfg : GoConfig} {peer : Nat} {go : Bool} {d : GoDevice}
    (h : Stands go d) (randomB : UInt8) :
    Fits cfg.goIntentIdx peer go (p2pStartCommunicate cfg d randomB) := by
  unfold p2pStartCommunicate
  cases hclient : d.client with
  | none => exact .quiet h
  | some e =>
    dsimp only
    have hsame : ∀ g : GoFormState, Stands go { d with
        goFormCurrentState := g, client := some { e with reTransmitCnt := 0 } } := fun g =>
      h.of_eq rfl rfl rfl (by simp [hclient])
    have hknown : ∀ dpid configMethod, Stands go { d with
        goFormCurrentState := .waitGoFormRsp, dpid, configMethod, client := some e } := fun _ _ =>
      h.of_eq rfl rfl rfl (by simp [hclient])
    split_ifs with hidle hstate hspec hrsp
    · obtain ⟨dpid, configMethod, heq⟩ := p2pSetWscRule_eq cfg
        { d with goFormCurrentState := .waitGoFormRsp, client := some e }
        { e with reTransmitCnt := 0 }
      rw [heq]
      exact fits_startGroupForm (hknown _ _) (by simp) randomB
    · exact fits_startGroupForm (hknown d.dpid d.configMethod) (by simp) randomB
    · exact .quiet (hsame d.goFormCurrentState)
    · exact .quiet (hsame .idle)
    · exact .quiet (hsame d.goFormCurrentState)

theorem fits_reSendTimeOut {cfg : GoConfig} {peer : Nat} {go : Bool} {d : GoDevice}
    (h : Stands go d) (randomB : UInt8) :
    Fits cfg.goIntentIdx peer go (p2pReSendTimeOut cfg d randomB) := by
  unfold p2pReSendTimeOut
  by_cases hrun : d.bP2pReSendTimerRunning = true
  · rw [if_pos hrun]
    have hstopped : Stands go { d with bP2pReSendTimerRunning := false } :=
      h.of_eq rfl rfl rfl (by simp)
    cases hclient : d.client with
    | none =>
      refine .quiet ?_
      simpa [hclient] using hstopped
    | some e =>
      dsimp only
      have hquiet : ∀ b cnt, Fits cfg.goIntentIdx peer go ({ d with
          bP2pReSendTimerRunning := false, connecting := b
          client := some { e with reTransmitCnt := cnt } }, none) := fun b cnt =>
        .quiet (h.of_eq rfl rfl rfl (by simp [hclient]))
      by_cases hconn : d.connecting = true
      · rw [if_pos hconn]
        by_cases hsent : e.p2pClientState = .sentGoNegReq
        · rw [if_pos hsent]
          have hstart : Fits cfg.goIntentIdx peer go (p2pStartGroupForm cfg { d with
              bP2pReSendTimerRunning := false, connecting := decide (e.reTransmitCnt + 1 < 10)
              client := some { e with reTransmitCnt := e.reTransmitCnt + 1 } }
              { e with reTransmitCnt := e.reTransmitCnt + 1 } randomB) :=
            fits_startGroupForm (hquiet _ _).stands (by simp) randomB
          refine ⟨hstart.stands, fun f hf => ?_⟩
          cases hcount : decide (e.reTransmitCnt + 1 < 10) with
          | true =>
            rw [hcount] at hf hstart
            exact hstart.settles f hf
          | false =>
            rw [hcount, if_neg (by simp)] at hf
            cases hf
        · rw [if_neg hsent]
          exact hquiet _ _
      · rw [if_neg hconn]
        exact hquiet d.connecting e.reTransmitCnt
  · rw [if_neg hrun]
    exact .quiet h

theorem stands_connectPrepare {go : Bool} {d : GoDevice} (h : Stands go d) :
    Stands go (p2pConnectPrepare d) := by
  unfold p2pConnectPrepare
  cases hclient : d.client with
  | none => exact h
  | some e =>
    refine h.of_eq rfl rfl rfl fun hw => ?_
    rw [awaitsConfirm_iff] at hw
    obtain ⟨e', heq, hstate⟩ := hw
    cases heq
    dsimp only at hstate
    split_ifs at hstate

theorem stands_sendPassed {go : Bool} {d : GoDevice} (h : Stands go d) :
    Stands go (p2pSendPassed d) := by
  unfold p2pSendPassed
  have hless : Stands go { d with passedCmds := d.passedCmds - 1 } := h.of_eq rfl rfl rfl id
  split_ifs
  · exact h
  · exact (stands_connectPrepare hless).of_eq rfl rfl rfl id
  · exact hless

theorem stands_linkDown (go : Bool) (d : GoDevice) : Stands go (p2pLinkDown d) :=
  ⟨nofun, by simp [p2pLinkDown], nofun, nofun⟩

theorem stands_discover {go : Bool} {d : GoDevice} (h : Stands go d) (free : GoPeer) :
    Stands go (d.discover free) := by
  unfold GoDevice.discover
  cases d.client with
  | none => exact h.of_eq rfl rfl rfl (by simp)
  | some e => exact h

theorem stands_configure {go : Bool} {d : GoDevice} (h : Stands go d) (dpid configMethod : UInt16)
    (bConfirmByUI provisioned : Bool) :
    Stands go (d.configure dpid configMethod bConfirmByUI provisioned) :=
  h.of_eq rfl rfl rfl (by simp [GoDevice.configure])

/-- **The mirror**: the answer to a request makes the other device what this one is not. -/
theorem settles_makeGoNegoRsp {cfg : GoConfig} {peer : Nat} {go : Bool} {t : Nat}
    (hpeer : t / 2 = peer) (hrule : wouldBeClient cfg.goIntentIdx t ↔ go = false) (d : GoDevice)
    (status : P2pStatus) : Settles cfg.goIntentIdx peer go (p2pMakeGoNegoRsp cfg d status t) := by
  unfold p2pMakeGoNegoRsp
  cases status with
  | success =>
    dsimp only [Settles]
    unfold wouldBeClient at hrule ⊢
    rw [← Bool.not_eq_false, ← hrule]
    split_ifs with htie <;> omega
  | _ => trivial

theorem fits_answerGoNegoReq {cfg : GoConfig} {peer : Nat} {go : Bool} {d : GoDevice} {e : GoPeer}
    {t : Nat} (h : Stands go d) (hclient : d.client = some e) (hpeer : t / 2 = peer)
    (hrule : wouldBeClient cfg.goIntentIdx t ↔ go = false) (dpid : UInt16) :
    Fits cfg.goIntentIdx peer go (answerGoNegoReq cfg d e t dpid) := by
  have hset := setsRule_p2pSetRule hrule
  have hsent := settles_makeGoNegoRsp hpeer hrule
  unfold answerGoNegoReq
  extract_lets status r noPin status' rsp r' passedCmds
  have hfirst : Stands go r.1 ∧ Stands go { r.1 with client := some r.2 } := by
    by_cases hsuccess : status = .success
    · have hr : r = p2pSetRule cfg d { e with p2pClientState := .waitGoComfirm, dpid } t :=
        if_pos hsuccess
      rw [hr]
      exact ⟨h.of_setsRule (hset d _) rfl rfl rfl, h.of_setsRule (hset d _) rfl rfl rfl⟩
    · have hr : r = (d, e) := if_neg hsuccess
      rw [hr]
      exact ⟨h, h.of_eq rfl rfl rfl (by simp [hclient])⟩
  split_ifs
  · refine ⟨hfirst.1.of_setsRule (hset r.1 { r.2 with dpid }) rfl rfl rfl, ?_⟩
    rintro f hf
    cases hf
    exact hsent r.1 status'
  · refine ⟨hfirst.2, ?_⟩
    rintro f hf
    cases hf
    exact hsent r.1 status'

theorem entryForReq_state {d : GoDevice} {free : Option GoPeer} {configMethod : UInt16} {e : GoPeer}
    (he : entryForReq d free configMethod = some e) :
    (∃ e', d.client = some e' ∧ e.p2pClientState = e'.p2pClientState) ∨
      d.client = none ∧ e.p2pClientState = .discovery := by
  unfold entryForReq at he
  cases hclient : d.client with
  | none =>
    rw [hclient] at he
    obtain ⟨e', -, rfl⟩ := Option.map_eq_some_iff.mp he
    exact .inr ⟨rfl, rfl⟩
  | some e' =>
    rw [hclient] at he
    cases he
    exact .inl ⟨e', rfl, rfl⟩

theorem fits_peerGoNegoReq {cfg : GoConfig} {peerAddr : Octets 6} {free : Option GoPeer}
    {atLimit : Bool} {peer : Nat} {go : Bool} {d : GoDevice} {t : Nat} {dpid configMethod : UInt16}
    (h : Stands go d) (hpeer : t / 2 = peer)
    (hrule : Takes cfg peerAddr free atLimit d configMethod →
      (wouldBeClient cfg.goIntentIdx t ↔ go = false)) :
    Fits cfg.goIntentIdx peer go
      (p2pPeerGoNegoReqAction cfg peerAddr free atLimit d t dpid configMethod) := by
  unfold p2pPeerGoNegoReqAction
  split_ifs with hstate hlimit
  · exact .quiet h
  · exact .quiet (h.of_eq rfl rfl rfl id)
  · have hlooks : Looks atLimit d := ⟨by tauto, hlimit⟩
    unfold p2pReceGoNegoReqAction
    cases he : entryForReq d free configMethod with
    | none => exact .quiet (h.of_eq rfl rfl rfl id)
    | some e =>
      dsimp only
      have hknown : Stands go { d with
          bP2pReSendTimerRunning := if d.client.isSome then false else d.bP2pReSendTimerRunning
          client := some e } := by
        refine h.of_eq rfl rfl rfl fun hw => ?_
        rw [awaitsConfirm_iff] at hw ⊢
        obtain ⟨_, hsome, hwait⟩ := hw
        cases hsome
        rcases entryForReq_state he with ⟨e', hclient, heq⟩ | ⟨-, heq⟩
        · exact ⟨e', hclient, heq ▸ hwait⟩
        · rw [heq] at hwait
          cases hwait
      by_cases hanswered : isAnswered cfg peerAddr e = true
      · rw [if_pos hanswered]
        have hfits := fits_answerGoNegoReq hknown rfl hpeer (hrule ⟨hlooks, e, he, hanswered⟩) dpid
        exact ⟨hfits.stands.of_eq rfl rfl rfl id, hfits.settles⟩
      · rw [if_neg hanswered]
        exact .quiet (hknown.of_eq rfl rfl rfl id)

theorem fits_sendGoNegoConfirm {own peer : Nat} {go : Bool} {d : GoDevice} {e : GoPeer}
    {r : GoDevice × GoPeer} (hset : SetsRule go d e r) :
    Fits own peer go (p2pSendGoNegoConfirm r.1 r.2) := by
  unfold p2pSendGoNegoConfirm
  rw [hset.peer]
  have hsettles : ∀ f ∈ some (GoFrame.confirm .success), Settles own peer go f := by
    intro f hf
    cases hf
    trivial
  cases go with
  | true => exact ⟨⟨fun _ => rfl, by simp, fun _ => rfl, nofun⟩, hsettles⟩
  | false =>
    refine ⟨⟨fun hs => ?_, fun _ _ => rfl, nofun, fun _ => rfl⟩, hsettles⟩
    have hconnect := hset.connect
    exact absurd (hs.symm.trans hconnect) (by simp)

theorem fits_peerGoNegoRsp {cfg : GoConfig} {peer : Nat} {go : Bool} {d : GoDevice}
    {status : P2pStatus} {t : Nat} {dpid configMethod : UInt16} (h : Stands go d)
    (hrule : status = .success → (wouldBeClient cfg.goIntentIdx t ↔ go = false)) :
    Fits cfg.goIntentIdx peer go (p2pPeerGoNegoRspAction cfg d status t dpid configMethod) := by
  unfold p2pPeerGoNegoRspAction
  split_ifs
  · exact .quiet h
  unfold p2pReceGoNegoRspAction
  dsimp only
  cases status with
  | bothIntent15 => exact .quiet (stands_linkDown go _)
  | invalidParm => exact .quiet (h.of_eq rfl rfl rfl id)
  | passed =>
    cases hclient : d.client with
    | none => exact .quiet (h.of_eq rfl rfl rfl (by simp))
    | some e => exact .quiet (h.of_eq rfl rfl rfl (by simp))
  | success =>
    cases hclient : d.client with
    | none => exact .quiet (h.of_eq rfl rfl rfl (by simp))
    | some e =>
      dsimp only
      split_ifs with hdpid hstray
      · exact .quiet (h.of_eq rfl rfl rfl (by simp [hclient]))
      · have hknown : Stands go { d with
            goFormCurrentState := .idle, bP2pReSendTimerRunning := false, client := some e } :=
          h.of_eq rfl rfl rfl (by simp [hclient])
        exact .quiet (hknown.of_setsRule
          (setsRule_p2pSetRule (hrule rfl) _ { e with configMethod, dpid }) rfl rfl rfl)
      · exact fits_sendGoNegoConfirm (setsRule_p2pSetRule (hrule rfl) _ _)

theorem stands_goNegoDone {go : Bool} {d : GoDevice} (h : Stands go d)
    (hclient : d.p2pConnectState = .anyInFormationAsClient → go = false) {e : GoPeer}
    (he : e.p2pClientState ≠ .waitGoComfirm) : Stands go (p2pGoNegoDone d e) := by
  unfold p2pGoNegoDone
  by_cases hgo : d.p2pConnectState = .anyInFormationAsGo
  · rw [if_pos hgo]
    exact ⟨fun _ => h.asGo hgo, by simp [he], fun _ => h.asGo hgo, h.cliUp⟩
  rw [if_neg hgo]
  by_cases hcli : d.p2pConnectState = .anyInFormationAsClient
  · rw [if_pos hcli]
    have hno := hclient hcli
    dsimp only
    split_ifs
    · exact ⟨nofun, nofun, nofun, fun _ => hno⟩
    · exact ⟨fun hs => absurd hs hgo, fun _ _ => hno, nofun, fun _ => hno⟩
  · rw [if_neg hcli]
    exact h.of_eq rfl rfl rfl (by simp [he])

theorem stands_receGoNegoConfirm {go : Bool} {d : GoDevice} (h : Stands go d)
    (hwaits : d.p2pConnectState = .anyInFormationAsClient → d.AwaitsConfirm) (status : P2pStatus) :
    Stands go (p2pReceGoNegoConfirmAction d status) := by
  have hclient : d.p2pConnectState = .anyInFormationAsClient → go = false := fun hs =>
    h.waits (hwaits hs) hs
  unfold p2pReceGoNegoConfirmAction
  by_cases hstatus : status ≠ .success
  · rw [if_pos hstatus]
    exact h
  rw [if_neg hstatus]
  cases d.client with
  | none => exact h
  | some e =>
    dsimp only
    split_ifs
    · exact h
    · exact stands_goNegoDone h hclient nofun
    · exact stands_goNegoDone h hclient nofun

theorem stands_peerGoNegoConfirm {go : Bool} {d : GoDevice} (h : Stands go d)
    (hwaits : d.goFormCurrentState = .waitGoFormConf →
      d.p2pConnectState = .anyInFormationAsClient → d.AwaitsConfirm) (status : P2pStatus) :
    Stands go (p2pPeerGoNegoConfirmAction d status) := by
  unfold p2pPeerGoNegoConfirmAction
  by_cases hstate : d.goFormCurrentState ≠ .waitGoFormConf
  · rw [if_pos hstate]
    exact h
  · rw [if_neg hstate]
    exact (stands_receGoNegoConfirm h (hwaits (not_not.mp hstate)) status).of_eq rfl rfl rfl id

/-! ## 2. Two intents of 15 -/

/-- What is on the air when both intents are 15: no answer is a success, and there is no confirm. -/
def Dull : GoFrame → Prop
  | .req tempIntent _ _ => tempIntent / 2 = 15
  | .rsp status _ _ _ => status ≠ .success
  | .confirm _ => False

/-- The device has not completed the negotiation, and what it sends does not help. -/
structure Fruitless (r : GoDevice × Option GoFrame) : Prop where
  goUp : r.1.goUp = false
  cliUp : r.1.cliUp = false
  dull : ∀ f ∈ r.2, Dull f

theorem Fruitless.quiet {d : GoDevice} (hgo : d.goUp = false) (hcli : d.cliUp = false) :
    Fruitless (d, none) :=
  ⟨hgo, hcli, nofun⟩

section Intent15

variable {cfg : GoConfig} (h15 : cfg.goIntentIdx = 15) {d : GoDevice} (hgo : d.goUp = false)
  (hcli : d.cliUp = false)
include h15 hgo hcli

theorem fruitless_startGroupForm (e : GoPeer) (randomB : UInt8) :
    Fruitless (p2pStartGroupForm cfg d e randomB) := by
  unfold p2pStartGroupForm
  split_ifs
  · refine ⟨hgo, hcli, fun f hf => ?_⟩
    cases hf
    simp [p2pMakeGoNegoReq, Dull, h15]
  · exact .quiet hgo hcli

theorem fruitless_startCommunicate (randomB : UInt8) :
    Fruitless (p2pStartCommunicate cfg d randomB) := by
  unfold p2pStartCommunicate
  cases d.client with
  | none => exact .quiet hgo hcli
  | some e =>
    dsimp only
    split_ifs
    · obtain ⟨_, _, heq⟩ := p2pSetWscRule_eq cfg
        { d with goFormCurrentState := .waitGoFormRsp, client := some e }
        { e with reTransmitCnt := 0 }
      rw [heq]
      apply fruitless_startGroupForm h15 <;> assumption
    · apply fruitless_startGroupForm h15 <;> assumption
    all_goals exact .quiet hgo hcli

theorem fruitless_reSendTimeOut (randomB : UInt8) :
    Fruitless (p2pReSendTimeOut cfg d randomB) := by
  unfold p2pReSendTimeOut
  split_ifs
  · cases d.client with
    | none => exact .quiet hgo hcli
    | some e =>
      dsimp only
      have hstart : ∀ b, Fruitless (p2pStartGroupForm cfg { d with
          bP2pReSendTimerRunning := false, connecting := b
          client := some { e with reTransmitCnt := e.reTransmitCnt + 1 } }
          { e with reTransmitCnt := e.reTransmitCnt + 1 } randomB) := fun b => by
        apply fruitless_startGroupForm h15 <;> assumption
      split_ifs
      · exact hstart _
      · exact .quiet (hstart _).goUp (hstart _).cliUp
      · exact .quiet hgo hcli
      · exact .quiet hgo hcli
  · exact .quiet hgo hcli

theorem fruitless_answerGoNegoReq {t : Nat} (ht : t / 2 = 15) (e : GoPeer) (dpid : UInt16) :
    Fruitless (answerGoNegoReq cfg d e t dpid) := by
  have hset : ∀ d : GoDevice, d.goUp = false → d.cliUp = false → ∀ e,
      (p2pSetRule cfg d e t).1.goUp = false ∧ (p2pSetRule cfg d e t).1.cliUp = false := by
    intro d hgo hcli e
    by_cases hclient : wouldBeClient cfg.goIntentIdx t
    · have hrule : SetsRule false d e (p2pSetRule cfg d e t) :=
        setsRule_p2pSetRule (by simp [hclient]) d e
      exact ⟨hrule.goUp.trans hgo, hrule.cliUp.trans hcli⟩
    · have hrule : SetsRule true d e (p2pSetRule cfg d e t) :=
        setsRule_p2pSetRule (by simp [hclient]) d e
      exact ⟨hrule.goUp.trans hgo, hrule.cliUp.trans hcli⟩
  have hstatus : rspStatus cfg d (t / 2) = .bothIntent15 := by
    unfold rspStatus
    rw [if_pos ⟨by simp [ht, h15], ht⟩]
  unfold answerGoNegoReq
  extract_lets first r noPin status rsp r' passedCmds
  have hno : first ≠ .success := by
    unfold first
    rw [hstatus]
    decide
  have hr : r = (d, e) := if_neg hno
  have hdull : ∀ f ∈ some rsp, Dull f := by
    rintro f ⟨⟩
    change status ≠ .success
    unfold status
    split_ifs
    · exact nofun
    · exact hno
  have hrgo : r.1.goUp = false := by rw [hr]; exact hgo
  have hrcli : r.1.cliUp = false := by rw [hr]; exact hcli
  by_cases hpassed : status = .passed
  · rw [if_pos hpassed]
    have hflags := hset r.1 hrgo hrcli { r.2 with dpid }
    exact ⟨hflags.1, hflags.2, hdull⟩
  · rw [if_neg hpassed]
    exact ⟨hrgo, hrcli, hdull⟩

theorem fruitless_receiveGoFrame (peerAddr : Octets 6) (free : Option GoPeer) (atLimit : Bool)
    {f : GoFrame} (hf : Dull f) :
    Fruitless (receiveGoFrame cfg peerAddr free atLimit d f) := by
  cases f with
  | confirm status => exact hf.elim
  | req t dpid configMethod =>
    unfold receiveGoFrame
    dsimp only
    unfold p2pPeerGoNegoReqAction
    split_ifs
    · exact .quiet hgo hcli
    · exact .quiet hgo hcli
    unfold p2pReceGoNegoReqAction
    cases entryForReq d free configMethod with
    | none => exact .quiet hgo hcli
    | some e =>
      dsimp only
      by_cases hanswered : isAnswered cfg peerAddr e = true
      · rw [if_pos hanswered]
        have hr : Fruitless (answerGoNegoReq cfg { d with
            bP2pReSendTimerRunning := if d.client.isSome then false else d.bP2pReSendTimerRunning
            client := some e } e t dpid) := by
          apply fruitless_answerGoNegoReq h15 <;> assumption
        exact ⟨hr.goUp, hr.cliUp, hr.dull⟩
      · rw [if_neg hanswered]
        exact .quiet hgo hcli
  | rsp status t dpid configMethod =>
    unfold receiveGoFrame
    dsimp only
    unfold p2pPeerGoNegoRspAction
    split_ifs
    · exact .quiet hgo hcli
    unfold p2pReceGoNegoRspAction
    dsimp only
    cases status with
    | success => exact absurd rfl hf
    | bothIntent15 => exact .quiet rfl rfl
    | invalidParm => exact .quiet hgo hcli
    | passed => cases d.client <;> exact .quiet hgo hcli

end Intent15

/-! ## 3. Requests that cross -/

theorem isP2pFirstMacSmaller_antisymm {a b : Octets 6} (hab : isP2pFirstMacSmaller a b = true)
    (hba : isP2pFirstMacSmaller b a = true) : a = b := by
  unfold isP2pFirstMacSmaller at hab hba
  rw [List.all_eq_true] at hab hba
  refine List.Vector.ext fun i => ?_
  have hle : a.get i ≤ b.get i := of_decide_eq_true (hab i (List.mem_finRange i))
  have hge : b.get i ≤ a.get i := of_decide_eq_true (hba i (List.mem_finRange i))
  exact UInt8.le_antisymm hle hge

/-- **Which request is answered**: a device that has one of its own out answers the other's exactly
if its address does not count as smaller, provided it looks at it. -/
theorem receiveReq_isSome {cfg : GoConfig} {peerAddr : Octets 6} {free : Option GoPeer}
    {atLimit : Bool} {d : GoDevice} {t : Nat} {dpid configMethod : UInt16}
    (hout : d.HasRequestOut) (hlooks : Looks atLimit d) :
    (receiveGoFrame cfg peerAddr free atLimit d (.req t dpid configMethod)).2.isSome =
      !isP2pFirstMacSmaller peerAddr cfg.currentAddress := by
  rw [hasRequestOut_iff] at hout
  obtain ⟨e, hclient, hstate⟩ := hout
  obtain ⟨hform, hlimit⟩ := hlooks
  unfold receiveGoFrame
  dsimp only
  unfold p2pPeerGoNegoReqAction
  rw [if_neg (by tauto), if_neg hlimit]
  unfold p2pReceGoNegoReqAction entryForReq
  rw [hclient]
  dsimp only
  have hanswered : isAnswered cfg peerAddr { e with
      configMethod, reTransmitCnt := if d.bP2pReSendTimerRunning then 0 else e.reTransmitCnt } =
        !isP2pFirstMacSmaller peerAddr cfg.currentAddress := by
    unfold isAnswered
    rw [hstate]
    cases isP2pFirstMacSmaller peerAddr cfg.currentAddress <;> decide
  rw [hanswered]
  cases isP2pFirstMacSmaller peerAddr cfg.currentAddress with
  | true => rfl
  | false =>
    unfold answerGoNegoReq
    dsimp only
    rw [Bool.not_false, if_pos rfl]
    split_ifs <;> rfl

/-! ## 4. Runs -/

/-- What holds as long as all requests that are taken make the same device group owner. -/
def RolesFit (cfg : Party → GoConfig) (go : Party) (w : GoWorld) : Prop :=
  ∀ p, Stands (decide (p = go)) (w.device p) ∧
    ∀ f ∈ w.sent p, Settles (cfg p).goIntentIdx (cfg p.other).goIntentIdx (decide (p = go)) f

/-- What holds when both intents are 15. -/
def NoneFit (w : GoWorld) : Prop :=
  ∀ p, ((w.device p).goUp = false ∧ (w.device p).cliUp = false) ∧ ∀ f ∈ w.sent p, Dull f

/-- What became of crossed requests is what the addresses say, and one of them is smaller. -/
def CrossFit (cfg : Party → GoConfig) (w : GoWorld) : Prop :=
  ∀ p, ∀ b ∈ w.crossed p,
    b = !isP2pFirstMacSmaller (cfg p.other).currentAddress (cfg p).currentAddress ∧
      (isP2pFirstMacSmaller (cfg p).currentAddress (cfg p.other).currentAddress = true ∨
        isP2pFirstMacSmaller (cfg p.other).currentAddress (cfg p).currentAddress = true)

section Runs

variable {cfg : Party → GoConfig} {go : Party} {w : GoWorld}

theorem rolesFit_put (h : RolesFit cfg go w) {p : Party} {r : GoDevice × Option GoFrame}
    (hr : Fits (cfg p).goIntentIdx (cfg p.other).goIntentIdx (decide (p = go)) r) :
    RolesFit cfg go (w.put p r) := by
  intro q
  by_cases hq : q = p
  · subst hq
    refine ⟨by simpa [put] using hr.stands, fun f hf => ?_⟩
    simp only [put, Function.update_self, List.mem_append, Option.mem_toList] at hf
    rcases hf with hf | hf
    · exact (h q).2 f hf
    · exact hr.settles f hf
  · simpa [put, Function.update_of_ne hq] using h q

theorem noneFit_put (h : NoneFit w) {p : Party} {r : GoDevice × Option GoFrame}
    (hr : Fruitless r) : NoneFit (w.put p r) := by
  intro q
  by_cases hq : q = p
  · subst hq
    refine ⟨by simpa [put] using ⟨hr.goUp, hr.cliUp⟩, fun f hf => ?_⟩
    simp only [put, Function.update_self, List.mem_append, Option.mem_toList] at hf
    rcases hf with hf | hf
    · exact (h q).2 f hf
    · exact hr.dull f hf
  · simpa [put, Function.update_of_ne hq] using h q

/-- A frame that arrives in a world where the roles fit. -/
theorem fits_receive (h : RolesFit cfg go w) (h15 : ¬ Both15 cfg) {p : Party} {k : Nat}
    {free : Option GoPeer} {atLimit : Bool} {f : GoFrame} (hf : (w.sent p.other)[k]? = some f)
    (hmeets : MeetsFrame cfg go p (w.device p) free atLimit f) :
    Fits (cfg p).goIntentIdx (cfg p.other).goIntentIdx (decide (p = go))
      (receiveGoFrame (cfg p) (cfg p.other).currentAddress free atLimit (w.device p) f) := by
  have hstands := (h p).1
  have hsettles := (h p.other).2 f (List.mem_of_getElem? hf)
  rw [Party.other_other] at hsettles
  cases f with
  | req t dpid configMethod =>
    refine fits_peerGoNegoReq hstands hsettles fun htakes => ?_
    rcases hmeets.1 htakes with hboth | hrule
    · exact absurd hboth h15
    · rw [hrule, decide_eq_false_iff_not]
  | rsp status t dpid configMethod =>
    refine fits_peerGoNegoRsp hstands fun hsuccess => ?_
    subst hsuccess
    have hother : p.other = go ↔ ¬ p = go := by
      cases p <;> cases go <;> simp [Party.other]
    have hrule : wouldBeClient (cfg p).goIntentIdx t ↔ decide (p.other = go) = true := hsettles
    rw [hrule, decide_eq_true_iff, decide_eq_false_iff_not, hother]
  | confirm status => exact .quiet (stands_peerGoNegoConfirm hstands hmeets status)

theorem rolesFit_step (h15 : ¬ Both15 cfg) (h : RolesFit cfg go w) (i : Party × GoAction)
    (hmeets : Meets cfg go w i) : RolesFit cfg go (w.step cfg i) := by
  obtain ⟨p, action⟩ := i
  have hstands := (h p).1
  cases action with
  | discover free => exact rolesFit_put h (.quiet (stands_discover hstands free))
  | configure dpid configMethod bConfirmByUI provisioned =>
    exact rolesFit_put h (.quiet (stands_configure hstands _ _ _ _))
  | connect => exact rolesFit_put h (.quiet (stands_connectPrepare hstands))
  | startCommunicate randomB => exact rolesFit_put h (fits_startCommunicate hstands randomB)
  | reSend randomB => exact rolesFit_put h (fits_reSendTimeOut hstands randomB)
  | sendPassed => exact rolesFit_put h (.quiet (stands_sendPassed hstands))
  | gotoIdle => exact rolesFit_put h (.quiet (hstands.of_eq rfl rfl rfl id))
  | linkDown => exact rolesFit_put h (.quiet (stands_linkDown _ _))
  | receive k free atLimit =>
    unfold step
    dsimp only
    unfold deliver
    cases hf : (w.sent p.other)[k]? with
    | none => exact h
    | some f =>
      dsimp only
      have hput := rolesFit_put h (fits_receive h h15 hf (hmeets f hf))
      split_ifs
      · exact hput
      · exact hput

theorem noneFit_step (h15 : Both15 cfg) (h : NoneFit w) (i : Party × GoAction) :
    NoneFit (w.step cfg i) := by
  obtain ⟨p, action⟩ := i
  obtain ⟨⟨hgo, hcli⟩, -⟩ := h p
  cases action with
  | discover free =>
    refine noneFit_put h ?_
    unfold GoDevice.discover
    cases (w.device p).client <;> exact .quiet hgo hcli
  | configure => exact noneFit_put h (.quiet hgo hcli)
  | connect =>
    refine noneFit_put h ?_
    unfold p2pConnectPrepare
    cases (w.device p).client <;> exact .quiet hgo hcli
  | startCommunicate randomB =>
    exact noneFit_put h (fruitless_startCommunicate (h15 p) hgo hcli randomB)
  | reSend randomB => exact noneFit_put h (fruitless_reSendTimeOut (h15 p) hgo hcli randomB)
  | sendPassed =>
    refine noneFit_put h ?_
    unfold p2pSendPassed p2pConnectPrepare
    split_ifs
    · exact .quiet hgo hcli
    · cases (w.device p).client <;> exact .quiet hgo hcli
    · exact .quiet hgo hcli
  | gotoIdle => exact noneFit_put h (.quiet hgo hcli)
  | linkDown => exact noneFit_put h (.quiet rfl rfl)
  | receive k free atLimit =>
    unfold step
    dsimp only
    unfold deliver
    cases hf : (w.sent p.other)[k]? with
    | none => exact h
    | some f =>
      dsimp only
      have hdull := (h p.other).2 f (List.mem_of_getElem? hf)
      have hput : NoneFit (w.put p
          (receiveGoFrame (cfg p) (cfg p.other).currentAddress free atLimit (w.device p) f)) :=
        noneFit_put h (fruitless_receiveGoFrame (h15 p) hgo hcli _ free atLimit hdull)
      split_ifs
      · exact hput
      · exact hput

theorem crossFit_step (h : CrossFit cfg w) (i : Party × GoAction) (hmeets : Meets cfg go w i) :
    CrossFit cfg (w.step cfg i) := by
  obtain ⟨p, action⟩ := i
  cases action with
  | receive k free atLimit =>
    unfold step
    dsimp only
    unfold deliver
    cases hf : (w.sent p.other)[k]? with
    | none => exact h
    | some f =>
      dsimp only
      split_ifs with hcross
      · obtain ⟨hreq, hout⟩ := hcross
        cases f with
        | rsp => cases hreq
        | confirm => cases hreq
        | req t dpid configMethod =>
          obtain ⟨hlooks, hcomparable⟩ := (hmeets _ hf).2 hout
          intro q b hb
          by_cases hq : q = p
          · subst hq
            simp only [Function.update_self, List.mem_append, List.mem_singleton] at hb
            rcases hb with hb | rfl
            · exact h q b hb
            · exact ⟨receiveReq_isSome hout hlooks, hcomparable⟩
          · simp only [Function.update_of_ne hq] at hb
            exact h q b hb
      · exact h
  | _ => exact h

theorem agrees_of_fit (hne : (cfg .first).currentAddress ≠ (cfg .second).currentAddress)
    (hroles : ¬ Both15 cfg → RolesFit cfg go w) (hnone : Both15 cfg → NoneFit w)
    (hcross : CrossFit cfg w) : Agrees cfg w where
  roles r s hr hs := by
    have hdone : ∀ p r, (w.device p).completed = some r → ¬ Both15 cfg →
        r = if decide (p = go) then .isGo else .isClient := by
      intro p r hr h15
      have hstands := (hroles h15 p).1
      unfold GoDevice.completed at hr
      split_ifs at hr with hgo hcli
      · cases hr
        rw [hstands.goUp hgo, if_pos rfl]
      · cases hr
        rw [hstands.cliUp hcli, if_neg (by simp)]
    by_cases h15 : Both15 cfg
    · have hidle := (hnone h15 .first).1
      simp [GoDevice.completed, hidle] at hr
    · rw [hdone _ _ hr h15, hdone _ _ hs h15]
      cases go <;> simp
  none15 h15 p := by
    obtain ⟨hgo, hcli⟩ := (hnone h15 p).1
    simp [GoDevice.completed, hgo, hcli]
  once a ha b hb := by
    obtain ⟨rfl, hcomparable⟩ := hcross .first a ha
    obtain ⟨rfl, -⟩ := hcross .second b hb
    intro heq
    rw [Bool.not_inj_iff] at heq
    -- of two that are comparable and not equal, only one is smaller
    rcases hcomparable with hlt | hlt
    · exact hne (isP2pFirstMacSmaller_antisymm hlt (heq.trans hlt))
    · exact hne (isP2pFirstMacSmaller_antisymm (heq.symm.trans hlt) hlt)

end Runs

theorem agrees_of_stepsMeet {cfg : Party → GoConfig}
    (hne : (cfg .first).currentAddress ≠ (cfg .second).currentAddress) (go : Party)
    {run : List (Party × GoAction)} (h : Run.StepsMeet (step cfg) (Meets cfg go) start run) :
    ∀ done rest, run = done ++ rest → Agrees cfg (Run.final (step cfg) start done) := by
  intro done rest hsplit
  subst hsplit
  have hdone := (Run.stepsMeet_append.mp h).1
  have hroles : ¬ Both15 cfg → RolesFit cfg go (Run.final (step cfg) start done) := fun h15 =>
    Run.invariant (RolesFit cfg go) (fun w i hw hi => rolesFit_step h15 hw i hi)
      (fun p => ⟨⟨nofun, by simp [start], nofun, nofun⟩, nofun⟩) hdone
  refine agrees_of_fit hne hroles (fun h15 => ?_) ?_
  · exact Run.invariant_always NoneFit (fun w i hw => noneFit_step h15 hw i)
      (fun p => ⟨⟨rfl, rfl⟩, nofun⟩)
  · exact Run.invariant (CrossFit cfg) (fun w i hw hi => crossFit_step hw i hi) (fun p => nofun)
      hdone

namespace Example

def goConfig (l : List UInt8) (intent : Fin 16) : GoConfig :=
  { currentAddress := .ofList 6 l, goIntentIdx := intent }

def goPair (a b : GoConfig) : Party → GoConfig
  | .first => a
  | .second => b

def freeEntry : GoPeer := { p2pClientState := .none }

/-- The devices find each other and are told to use the push button. -/
def meeting : List (Party × GoAction) :=
  [(.first, .discover freeEntry), (.second, .discover freeEntry),
    (.first, .configure devPassIdPbc wscConfMetPbc true false),
    (.second, .configure devPassIdPbc wscConfMetPbc true false)]

/-- A request is sent twice with different tie-breaker bits and answered twice. -/
def redrawn : List (Party × GoAction) :=
  meeting ++
    [(.first, .connect), (.first, .startCommunicate 0), (.second, .receive 0 none false),
      (.first, .reSend 1), (.second, .receive 1 none false), (.first, .receive 0 none false),
      (.second, .receive 2 none false)]

/-- Both send a request, hear from each other once more, and have the other's request. -/
def crossing : List (Party × GoAction) :=
  meeting ++
    [(.first, .connect), (.second, .connect), (.first, .startCommunicate 0),
      (.second, .startCommunicate 0), (.first, .startCommunicate 0),
      (.second, .startCommunicate 0), (.first, .receive 0 none false),
      (.second, .receive 0 none false)]

/-- The same, and on to the confirm. -/
def settled : List (Party × GoAction) :=
  crossing ++
    [(.second, .gotoIdle), (.second, .receive 1 none false), (.first, .receive 1 none false)]

def sevens : Party → GoConfig :=
  goPair (goConfig [2, 0, 0, 0, 0, 1] 7) (goConfig [2, 0, 0, 0, 0, 2] 7)

def sevenEight : Party → GoConfig :=
  goPair (goConfig [2, 0, 0, 0, 0, 1] 7) (goConfig [2, 0, 0, 0, 0, 2] 8)

/-- Neither address is smaller in all octets. -/
def incomparable : Party → GoConfig :=
  goPair (goConfig [2, 0, 0, 0, 1, 0] 7) (goConfig [2, 0, 0, 0, 0, 1] 8)

end Example

open Example

theorem not_agrees :
    ¬ Agrees sevens (Run.final (step sevens) start redrawn) ∧
      ¬ Agrees incomparable (Run.final (step incomparable) start crossing) := by
  constructor
  · intro h
    rcases h.roles .isGo .isGo (by decide +kernel) (by decide +kernel) with h | h
    · cases h.2
    · cases h.1
  · intro h
    have hfirst : true ∈ (Run.final (step incomparable) start crossing).crossed .first := by
      decide +kernel
    have hsecond : true ∈ (Run.final (step incomparable) start crossing).crossed .second := by
      decide +kernel
    exact h.once true hfirst true hsecond rfl

theorem agrees_settled :
    ((Run.final (step sevenEight) start settled).device .first).completed = some .isClient ∧
      Agrees sevenEight (Run.final (step sevenEight) start settled) :=
  ⟨by decide +kernel,
    agrees_of_stepsMeet (by decide +kernel) .second
      (by decide +kernel : Run.StepsMeet (step sevenEight) (Meets sevenEight .second) start settled)
      settled [] (List.append_nil _).symm⟩

end Mt7601.P2p
