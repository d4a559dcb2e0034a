/-
# Who becomes the group owner: one device

The handlers of the GO Negotiation frames (`P2pReceGoNegoReqAction`, `P2pReceGoNegoRspAction`,
`P2pReceGoNegoConfirmAction` of `common/p2p_packet.c`), what sends these frames
(`P2pStartGroupForm`, `P2PSendGoNegoConfirm`, `P2pReSendTimeOut`), `P2pSetRule` and
`IsP2pFirstMacSmaller` (`common/p2p.c`), and the states in which a frame or a command is looked at
at all (`common/p2p_nego_mng.c`). `bProvAutoRsp` is on, as it is from the beginning.

There is one peer, and a device knows it or does not. Frames are what the other side reads out of
them; the dialog token, which nobody compares, channels, SSIDs and interface addresses are left out.
-/
import Mt7601.P2p.GroupInfo

namespace Mt7601.P2p

/-! ## 1. The device -/

/-- `P2P_GO_FORM_STATE` -/
inductive GoFormState
  | idle
  | waitGoFormRsp
  | waitGoFormConf
  | goFormDone
  | goFormProv
  | waitGoFormProvRsp
  | goFormInvite
  | waitGoFormInviteRsp
  | waitGoFormDevDiscRsp
  | waitGoFormSrvDiscRsp
  deriving DecidableEq, Repr

/-- `P2P_CONNECT_STATE` -/
inductive P2pConnectState
  | connectNoUse
  | connectIdle
  | invite
  | anyInFormationAsGo
  | anyInFormationAsClient
  | doGoNegDoneClient
  | doGoScanOpBegin
  | doGoScanOpDone
  | doGoScanBegin
  | doGoScanDone
  | wpsRegistra
  | doWpsEnrollee
  deriving DecidableEq, Repr

/-- `P2P_IS_GO` and so on -/
inductive P2pRule
  | isGo
  | isClient
  | isDevice
  | isClientInGroup
  deriving DecidableEq, Repr

def devPassIdPin : UInt16 := 0
def devPassIdUser : UInt16 := 1
def devPassIdPbc : UInt16 := 4
def devPassIdReg : UInt16 := 5
def devPassIdNoSpec : UInt16 := 0xffff

def wscConfMetDisplay : UInt16 := 0x0008
def wscConfMetPbc : UInt16 := 0x0080
def wscConfMetKeypad : UInt16 := 0x0100

/-- `P2PSTATUS_SUCCESS` and so on -/
inductive P2pStatus
  | success
  | passed
  | invalidParm
  | bothIntent15
  deriving DecidableEq, Repr

/-- What is set up for a device: the driver does not change it here. -/
structure GoConfig where
  currentAddress : Octets 6
  goIntentIdx : Fin 16
  bSigmaEnabled : Bool := false
  defaultConfigMethod : Nat := 1

/-- `RT_P2P_CLIENT_ENTRY`: of the peer, what the negotiation looks at. -/
structure GoPeer where
  p2pClientState : P2pClientState
  rule : P2pRule := .isClient
  dpid : UInt16 := 0
  configMethod : UInt16 := 0
  provisioned : Bool := false
  reTransmitCnt : Nat := 0
  deriving DecidableEq

/-- `RT_P2P_CONFIG`. `goUp` and `cliUp` are the bits of `flg_p2p_OpStatusFlags`, `connecting` says
that `ConnectingMAC` is the peer's address, `passedCmds` counts the `P2P_SEND_PASSED_CMD_EVT` that
are queued. -/
structure GoDevice where
  goFormCurrentState : GoFormState := .idle
  p2pConnectState : P2pConnectState := .connectIdle
  rule : P2pRule := .isDevice
  goUp : Bool := false
  cliUp : Bool := false
  dpid : UInt16 := devPassIdNoSpec
  configMethod : UInt16 := 0x188
  bConfirmByUI : Bool := true
  bP2pReSendTimerRunning : Bool := false
  connecting : Bool := false
  passedCmds : Nat := 0
  client : Option GoPeer := none

/-- What is read out of the three frames. -/
inductive GoFrame
  | req (tempIntent : Nat) (dpid configMethod : UInt16)
  | rsp (status : P2pStatus) (tempIntent : Nat) (dpid configMethod : UInt16)
  | confirm (status : P2pStatus)

/-! ## 2. The rule -/

/-- `P2P_SetWscRule` -/
def p2pSetWscRule (cfg : GoConfig) (d : GoDevice) (e : GoPeer) : GoDevice :=
  if d.dpid = devPassIdNoSpec then
    if e.configMethod = wscConfMetKeypad ∨ e.dpid = devPassIdUser then
      { d with configMethod := wscConfMetDisplay, dpid := devPassIdReg }
    else if e.configMethod = wscConfMetDisplay ∨ e.dpid = devPassIdReg then
      { d with configMethod := wscConfMetKeypad, dpid := devPassIdUser }
    else if e.configMethod = wscConfMetPbc ∨ e.dpid = devPassIdPbc then
      { d with configMethod := wscConfMetPbc, dpid := devPassIdPbc }
    else if e.rule = .isClient ∧ d.rule = .isGo then
      { d with configMethod := wscConfMetKeypad, dpid := devPassIdUser }
    else if cfg.defaultConfigMethod = 1 then
      { d with configMethod := wscConfMetDisplay, dpid := devPassIdReg }
    else if cfg.defaultConfigMethod = 2 then
      { d with configMethod := wscConfMetKeypad, dpid := devPassIdUser }
    else if cfg.defaultConfigMethod = 3 then
      { d with configMethod := wscConfMetPbc, dpid := devPassIdPbc }
    else d
  else d

/-- A device is to be a client, or group owner. -/
def formAsClient (cfg : GoConfig) (d : GoDevice) (e : GoPeer) : GoDevice × GoPeer :=
  (p2pSetWscRule cfg { d with p2pConnectState := .anyInFormationAsClient } { e with rule := .isGo },
    { e with rule := .isGo })

@[inherit_doc formAsClient]
def formAsGo (cfg : GoConfig) (d : GoDevice) (e : GoPeer) : GoDevice × GoPeer :=
  (p2pSetWscRule cfg { d with p2pConnectState := .anyInFormationAsGo } { e with rule := .isClient },
    { e with rule := .isClient })

/-- `P2pSetRule` -/
def p2pSetRule (cfg : GoConfig) (d : GoDevice) (e : GoPeer) (peerGoIntentAttri : Nat) :
    GoDevice × GoPeer :=
  let realIntent := peerGoIntentAttri / 2
  if cfg.goIntentIdx < realIntent then formAsClient cfg d e
  else if realIntent < cfg.goIntentIdx then formAsGo cfg d e
  else if peerGoIntentAttri % 2 = 1 then formAsClient cfg d e
  else formAsGo cfg d e

/-- `IsP2pFirstMacSmaller`: no octet of the first address is larger. -/
def isP2pFirstMacSmaller (first second : Octets 6) : Bool :=
  (List.finRange 6).all fun i => first.get i ≤ second.get i

/-! ## 3. A request -/

/-- `P2PMakeGoNegoReq`: the tie-breaker bit is drawn for each frame. -/
def p2pMakeGoNegoReq (cfg : GoConfig) (d : GoDevice) (randomB : UInt8) : GoFrame :=
  let tie := if randomB.toNat % 2 = 0 ∧ cfg.goIntentIdx ≠ 15 then 1 else 0
  .req (cfg.goIntentIdx * 2 + tie) d.dpid d.configMethod

/-- `P2pStartGroupForm` -/
def p2pStartGroupForm (cfg : GoConfig) (d : GoDevice) (e : GoPeer) (randomB : UInt8) :
    GoDevice × Option GoFrame :=
  if e.p2pClientState = .connectCommand ∨ e.p2pClientState = .discovery ∨
      e.p2pClientState = .sentGoNegReq then
    ({ d with
        -- for the time being
        p2pConnectState := .anyInFormationAsClient
        bP2pReSendTimerRunning := true
        client := some { e with p2pClientState := .sentGoNegReq } },
      some (p2pMakeGoNegoReq cfg d randomB))
  else ({ d with client := some e }, none)

/-- `P2P_START_COMMUNICATE_CMD_EVT`, for a peer that has answered a probe. Of the handlers of
`rt_p2p_handler` there is `P2pSendStartGroupFormCmd`. -/
def p2pStartCommunicate (cfg : GoConfig) (d : GoDevice) (randomB : UInt8) :
    GoDevice × Option GoFrame :=
  match d.client with
  | none => (d, none)
  | some e =>
    let e := { e with reTransmitCnt := 0 }
    if d.goFormCurrentState = .idle then
      if e.p2pClientState = .connectCommand ∨ e.p2pClientState = .sentGoNegReq then
        let d := { d with goFormCurrentState := .waitGoFormRsp }
        let d := if d.dpid = devPassIdNoSpec then p2pSetWscRule cfg d e else d
        p2pStartGroupForm cfg d e randomB
      else ({ d with client := some e }, none)
    -- `InvalidP2PGoNegoState`
    else if d.goFormCurrentState = .waitGoFormRsp then
      ({ d with goFormCurrentState := .idle, client := some e }, none)
    else ({ d with client := some e }, none)

/-- `P2pReSendTimeOut`: the tenth time the address it sends to is already cleared. -/
def p2pReSendTimeOut (cfg : GoConfig) (d : GoDevice) (randomB : UInt8) :
    GoDevice × Option GoFrame :=
  if d.bP2pReSendTimerRunning then
    let d := { d with bP2pReSendTimerRunning := false }
    match d.client with
    | none => (d, none)
    | some e =>
      if d.connecting then
        let e := { e with reTransmitCnt := e.reTransmitCnt + 1 }
        let d := { d with connecting := decide (e.reTransmitCnt < 10), client := some e }
        if e.p2pClientState = .sentGoNegReq then
          let r := p2pStartGroupForm cfg d e randomB
          (r.1, if d.connecting then r.2 else none)
        else (d, none)
      else (d, none)
  else (d, none)

/-- `P2pConnectPrepare` with `P2PSTATE_CONNECT_COMMAND` -/
def p2pConnectPrepare (d : GoDevice) : GoDevice :=
  match d.client with
  | none => d
  | some e =>
    { d with
      bConfirmByUI := true
      goFormCurrentState := .idle
      connecting := true
      client := some { e with
        p2pClientState :=
          if e.p2pClientState = .discoveryGo then .provisionCommand else .connectCommand } }

/-- `P2pSendPassedAction`, where its event is not dropped. -/
def p2pSendPassed (d : GoDevice) : GoDevice :=
  if d.passedCmds = 0 then d
  else if d.goFormCurrentState = .idle ∨ d.goFormCurrentState = .waitGoFormConf then
    { p2pConnectPrepare { d with passedCmds := d.passedCmds - 1 } with goFormCurrentState := .idle }
  else { d with passedCmds := d.passedCmds - 1 }

/-- `P2pLinkDown` -/
def p2pLinkDown (d : GoDevice) : GoDevice :=
  { d with
    connecting := false
    p2pConnectState := .connectIdle
    goFormCurrentState := .idle
    client := none
    goUp := false
    cliUp := false
    configMethod := 0x188
    dpid := devPassIdNoSpec }

/-! ## 4. The answer to a request -/

/-- The status of the answer, up to the last say that the password has in it. -/
def rspStatus (cfg : GoConfig) (d : GoDevice) (intent : Nat) : P2pStatus :=
  if intent = cfg.goIntentIdx ∧ intent = 15 then .bothIntent15
  else if d.goUp then .invalidParm
  else if d.dpid = devPassIdNoSpec then .passed
  else if d.bConfirmByUI ∨ cfg.bSigmaEnabled then .success
  else .passed

/-- `P2PMakeGoNegoRsp`: the own intent with the peer's tie-breaker bit inverted. -/
def p2pMakeGoNegoRsp (cfg : GoConfig) (d : GoDevice) (status : P2pStatus) (tempIntent : Nat) :
    GoFrame :=
  .rsp status (cfg.goIntentIdx * 2 + if tempIntent % 2 = 1 then 0 else 1) d.dpid d.configMethod

/-- `P2pReceGoNegoReqAction`, from where the status is known. -/
def answerGoNegoReq (cfg : GoConfig) (d : GoDevice) (e : GoPeer) (tempIntent : Nat)
    (dpid : UInt16) : GoDevice × Option GoFrame :=
  let status := rspStatus cfg d (tempIntent / 2)
  let r :=
    if status = .success then
      p2pSetRule cfg d { e with p2pClientState := .waitGoComfirm, dpid } tempIntent
    else (d, e)
  let noPin := if e.provisioned then r.1.configMethod = wscConfMetKeypad else dpid = devPassIdReg
  let status := if noPin ∧ ¬ cfg.bSigmaEnabled then .passed else status
  let rsp := p2pMakeGoNegoRsp cfg r.1 status tempIntent
  if status = .passed then
    let r := p2pSetRule cfg r.1 { r.2 with dpid } tempIntent
    let passedCmds := r.1.passedCmds + if r.1.configMethod = wscConfMetKeypad then 0 else 1
    ({ r.1 with passedCmds, client := some r.2 }, some rsp)
  else ({ r.1 with client := some r.2 }, some rsp)

/-- The entry of the peer for a request of its: a new one where there is `free` space for it. -/
def entryForReq (d : GoDevice) (free : Option GoPeer) (configMethod : UInt16) : Option GoPeer :=
  match d.client with
  | some e =>
    some { e with
      configMethod, reTransmitCnt := if d.bP2pReSendTimerRunning then 0 else e.reTransmitCnt }
  | none => free.map fun e => { e with p2pClientState := .discovery, configMethod }

/-- A request is not answered while the peer is beyond the negotiation, and not if the device has
sent one itself and the address of the peer counts as smaller. -/
def isAnswered (cfg : GoConfig) (peerAddr : Octets 6) (e : GoPeer) : Bool :=
  e.p2pClientState.ctorIdx ≤ P2pClientState.goDone.ctorIdx ∧
    ¬ (e.p2pClientState = .sentGoNegReq ∧ isP2pFirstMacSmaller peerAddr cfg.currentAddress)

/-- `P2pReceGoNegoReqAction` -/
def p2pReceGoNegoReqAction (cfg : GoConfig) (peerAddr : Octets 6) (free : Option GoPeer)
    (d : GoDevice) (tempIntent : Nat) (dpid configMethod : UInt16) : GoDevice × Option GoFrame :=
  match entryForReq d free configMethod with
  | none => (d, none)
  | some e =>
    let d := { d with
      bP2pReSendTimerRunning := if d.client.isSome then false else d.bP2pReSendTimerRunning
      client := some e }
    if isAnswered cfg peerAddr e then answerGoNegoReq cfg d e tempIntent dpid else (d, none)

/-- `P2pPeerGoNegoReqAction`. `atLimit` says that the group has `p2pMaxEntry` members. -/
def p2pPeerGoNegoReqAction (cfg : GoConfig) (peerAddr : Octets 6) (free : Option GoPeer)
    (atLimit : Bool) (d : GoDevice) (tempIntent : Nat) (dpid configMethod : UInt16) :
    GoDevice × Option GoFrame :=
  if d.goFormCurrentState ≠ .idle ∧ d.goFormCurrentState ≠ .waitGoFormConf then (d, none)
  else if d.goUp ∧ atLimit then ({ d with goFormCurrentState := .idle }, none)
  else
    let r := p2pReceGoNegoReqAction cfg peerAddr free d tempIntent dpid configMethod
    ({ r.1 with goFormCurrentState := .waitGoFormConf }, r.2)

/-! ## 5. Response and confirm -/

/-- `P2PSendGoNegoConfirm`, with the `P2pSetWps` at its end. -/
def p2pSendGoNegoConfirm (d : GoDevice) (e : GoPeer) : GoDevice × Option GoFrame :=
  let d := { d with
    connecting := false
    goFormCurrentState := .idle
    client := some { e with p2pClientState := .waitGoComfirmAck } }
  if e.rule = .isClient then
    ({ d with rule := .isGo, goUp := true, cliUp := false }, some (.confirm .success))
  else ({ d with rule := .isClient, goUp := false, cliUp := true }, some (.confirm .success))

/-- A peer that was provisioned has to name the password that goes with its method. -/
def isWrongDpid (configMethod dpid : UInt16) : Bool :=
  configMethod = wscConfMetDisplay ∧ dpid ≠ devPassIdReg ∧ dpid ≠ devPassIdPin ∨
    configMethod = wscConfMetKeypad ∧ dpid ≠ devPassIdUser

/-- `P2pReceGoNegoRspAction` -/
def p2pReceGoNegoRspAction (cfg : GoConfig) (d : GoDevice) (status : P2pStatus) (tempIntent : Nat)
    (dpid configMethod : UInt16) : GoDevice × Option GoFrame :=
  let d := { d with bP2pReSendTimerRunning := false }
  match status with
  | .bothIntent15 => (p2pLinkDown d, none)
  | .passed =>
    match d.client with
    | none => (d, none)
    | some e =>
      ({ d with
          connecting := false
          goFormCurrentState := .idle
          client := some { e with p2pClientState := .discoveryClient, reTransmitCnt := 0 } }, none)
  | .invalidParm => (d, none)
  | .success =>
    match d.client with
    | none => (d, none)
    | some e =>
      let e := { e with configMethod, dpid }
      if e.provisioned ∧ isWrongDpid configMethod dpid then ({ d with client := some e }, none)
      else
        let r := p2pSetRule cfg d e tempIntent
        if r.1.p2pConnectState = .anyInFormationAsGo ∧ e.p2pClientState ≠ .sentGoNegReq then
          ({ r.1 with client := some r.2 }, none)
        else p2pSendGoNegoConfirm r.1 r.2

/-- `P2pPeerGoNegoRspAction` -/
def p2pPeerGoNegoRspAction (cfg : GoConfig) (d : GoDevice) (status : P2pStatus) (tempIntent : Nat)
    (dpid configMethod : UInt16) : GoDevice × Option GoFrame :=
  if d.goFormCurrentState ≠ .idle ∧ d.goFormCurrentState ≠ .waitGoFormRsp then (d, none)
  else
    p2pReceGoNegoRspAction cfg { d with goFormCurrentState := .idle } status tempIntent dpid
      configMethod

/-- `P2pGoNegoDone`, with the `P2pSetWps` at its end. -/
def p2pGoNegoDone (d : GoDevice) (e : GoPeer) : GoDevice :=
  if d.p2pConnectState = .anyInFormationAsGo then
    { d with
      rule := .isGo, goUp := true, connecting := false, goFormCurrentState := .idle
      client := some e }
  else if d.p2pConnectState = .anyInFormationAsClient then
    let d := { d with rule := .isClient, goUp := false, cliUp := true }
    if d.dpid ≠ devPassIdNoSpec then
      { d with
        p2pConnectState := .doGoScanBegin, connecting := false, goFormCurrentState := .idle
        client := some { e with p2pClientState := .goWps } }
    else { d with client := some e }
  else { d with client := some e }

/-- `P2pReceGoNegoConfirmAction`: only the device that is to be group owner looks whether it waits
for the frame. -/
def p2pReceGoNegoConfirmAction (d : GoDevice) (status : P2pStatus) : GoDevice :=
  if status ≠ .success then d
  else
    match d.client with
    | none => d
    | some e =>
      if d.p2pConnectState = .anyInFormationAsGo ∧ e.p2pClientState ≠ .waitGoComfirm then d
      else if d.p2pConnectState = .anyInFormationAsClient then
        p2pGoNegoDone d { e with rule := .isGo, p2pClientState := .goWps }
      else p2pGoNegoDone d { e with rule := .isClient, p2pClientState := .gotGoComfirm }

/-- `P2pPeerGoNegoConfirmAction` -/
def p2pPeerGoNegoConfirmAction (d : GoDevice) (status : P2pStatus) : GoDevice :=
  if d.goFormCurrentState ≠ .waitGoFormConf then d
  else { p2pReceGoNegoConfirmAction d status with goFormCurrentState := .idle }

/-- A public action frame of the peer (`PeerPublicAction`). -/
def receiveGoFrame (cfg : GoConfig) (peerAddr : Octets 6) (free : Option GoPeer) (atLimit : Bool)
    (d : GoDevice) : GoFrame → GoDevice × Option GoFrame
  | .req tempIntent dpid configMethod =>
    p2pPeerGoNegoReqAction cfg peerAddr free atLimit d tempIntent dpid configMethod
  | .rsp status tempIntent dpid configMethod =>
    p2pPeerGoNegoRspAction cfg d status tempIntent dpid configMethod
  | .confirm status => (p2pPeerGoNegoConfirmAction d status, none)

end Mt7601.P2p
