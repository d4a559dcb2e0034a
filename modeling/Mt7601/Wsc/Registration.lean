/-
# The registrar and the enrollee

`WscEapRegistrarAction` and `WscEapEnrolleeAction` of `common/wsc.c`: which message is taken in
which state, what is computed for the answer, and the state behind it. Of `BuildMessageM1` to
`BuildMessageM8` of `common/wsc_tlv.c` these are the nonces, the keys and the hashes; the octets
that are sent come with the event.

One control block serves both roles. Nothing here depends on who the peer is: any octets may come as
any message, and between two messages a PIN may be set, a start be received or the state machine be
reset.
-/
import Mt7601.Wsc.MessageReject

namespace Mt7601.Wsc

/-! ## 1. What is computed for an answer -/

/-- `WSC_ERROR_DECRYPT_CRC_FAIL` -/
def wscErrorDecryptCrcFail : Nat := 2

/-- A half of the PIN: two digits of four, else four. -/
def pinHalf (pin : Octets 8) (pinCodeLen : Nat) (second : Bool) : List UInt8 :=
  let n := if pinCodeLen = 4 then 2 else 4
  if second then (pin.toList.drop n).take n else pin.toList.take n

section

variable (C : WscCrypto)

/-- A pre-shared key, out of a half of the PIN. -/
def pskOf (authKey : List UInt8) (pin : Octets 8) (pinCodeLen : Nat) (second : Bool) : List UInt8 :=
  (C.hmacSha256 authKey (pinHalf pin pinCodeLen second)).toList.take 16

/-- The pre-shared keys and the two hashes of `BuildMessageM3` and `BuildMessageM4`. Both are made
with `Es1` and `Es2`. -/
def hashesBuilt (pin : Octets 8) (pinCodeLen : Nat) (hash1 hash2 : Field) (r : Regs) : Regs :=
  let r := r.put .psk1 (pskOf C (r .authKey).toList pin pinCodeLen false)
  let r := r.put hash1 (commitment C r .es1 .psk1).toList
  let r := r.put .psk2 (pskOf C (r .authKey).toList pin pinCodeLen true)
  r.put hash2 (commitment C r .es2 .psk2).toList

/-- The key pair of the enrollee. -/
def pkeComputed (random : Octets 192) (r : Regs) : Regs :=
  let r := r.put .enrolleeRandom random.toList
  r.put .pke (C.dhPublicKey random (r .pke)).toList

/-- The nonce of `BuildMessageM1`. -/
def m1Built (nonce : Octets 16) (r : Regs) : Regs :=
  (r.put .selfNonce nonce.toList).put .enrolleeNonce nonce.toList

/-- The nonce and the keys of `BuildMessageM2`. -/
def m2Built (nonce : Octets 16) (r : Regs) : Regs :=
  let r := r.put .secretKey (C.dhSecretKey (r .pke) (r .enrolleeRandom) (r .secretKey)).toList
  let r := (r.put .selfNonce nonce.toList).put .registrarNonce nonce.toList
  sessionKeys C r (r .enrolleeNonce).toList (r .peerMacAddr).toList

end

/-! ## 2. The state machine -/

/-- A control block with the state of its run. -/
structure Registration where
  state : WscState
  blk : WscBlock
  pin : Octets 8
  pinCodeLen : Nat
  reComputePke : Bool

/-- What an action finds besides the message: random octets and memory for the handler (`env`) and
for what is built (`memory`), `LastTx` as it is left (`tx`), and what the driver is set to.
`bSendM2D` says that no registration is wanted, `bSetupLock` that the access point is locked, and
`upnp` that the message has come over UPnP. -/
structure Circumstances where
  env : Surroundings
  nonce : Octets 16
  memory : Bool
  tx : List UInt8
  entryAddr : Octets 6
  bSendM2D : Bool
  bSetupLock : Bool
  bForceSetAP : Bool
  isEntryApCli : Bool
  upnp : Bool

namespace Registration

variable (s : Registration)

def setRegs (regs : Regs) : Registration := { s with blk := { s.blk with regs := regs } }

/-- A message has been built. -/
def sent (tx : List UInt8) (state : WscState) : Registration :=
  { s with state := state, blk := { s.blk with lastTx := tx } }

/-- An error, as it is told to the peer. -/
def withConfigError (rv : Nat) : Registration :=
  if rv ≤ wscErrorDevPwdAuthFail then
    s.setRegs (s.blk.regs.put .selfConfigError [UInt8.ofNat rv, 0])
  else if rv = wscErrorHashFail ∨ rv = wscErrorHmacFail then
    s.setRegs (s.blk.regs.put .selfConfigError [UInt8.ofNat wscErrorDecryptCrcFail, 0])
  else s

end Registration

/-- `WscState < WSC_STATE_SENT_M1` -/
def WscState.beforeM1 : WscState → Bool
  | .off | .init | .start | .fail | .configured | .linkUp | .sendEapolStart | .waitEapolStart
  | .waitUpnpStart | .waitReqId | .waitRespId | .waitWscStart | .waitM1 => true
  | _ => false

/-- A message is taken in this state. -/
def Message.awaited (m : Message) (state : WscState) : Bool :=
  match m with
  | .m1 => state = .waitM1
  | .m2 | .m2D => state = .sentM1 ∨ state = .rxM2D
  | .m3 => state = .waitM3
  | .m4 => state = .waitM4
  | .m5 => state = .waitM5
  | .m6 => state = .waitM6
  | .m7 => state = .waitM7
  | .m8 => state = .waitM8

/-- A message of the enrollee, for the registrar. -/
def Message.toRegistrar : Message → Bool
  | .m1 | .m3 | .m5 | .m7 => true
  | _ => false

section

variable (C : WscCrypto) (c : Circumstances) (s : Registration)

/-- `WSC_MSG_EAP_REQ_START`, and `WSC_MSG_EAP_RSP_ID` at an access point. -/
def Registration.start : Registration :=
  let regs := if s.reComputePke then pkeComputed C c.env.random s.blk.regs else s.blk.regs
  let s := { s.setRegs (m1Built c.nonce regs) with reComputePke := false }
  s.sent c.tx (if s.state.beforeM1 then .sentM1 else s.state)

/-- The block as an action hands it on. -/
def Registration.handed : Message → WscBlock
  | .m2 => { s.blk with regs := s.blk.regs.put .peerMacAddr c.entryAddr.toList }
  | _ => s.blk

/-- A message whose handler returns an error. -/
def Registration.failed (m : Message) (rv : Nat) : Registration :=
  if m.toRegistrar then { s.withConfigError rv with state := .off }
  else if s.blk.staMode then { s.withConfigError rv with state := .waitDisconn }
  else
    { s.withConfigError (if c.bSetupLock then wscErrorSetupLocked else rv) with state := .off }

/-- M3 or M4 is built: without memory nothing is computed, and nothing sent. -/
def Registration.hashed (hash1 hash2 : Field) (state : WscState) : Registration :=
  if c.memory then
    (s.setRegs (hashesBuilt C s.pin s.pinCodeLen hash1 hash2 s.blk.regs)).sent c.tx state
  else { s with state := state }

/-- A message whose handler returns none is answered. -/
def Registration.answered : Message → Registration
  | .m1 =>
    if c.bSendM2D then { s with state := if c.upnp then .waitUpnpStart else .sentM2D }
    else (s.setRegs (m2Built C c.nonce s.blk.regs)).sent c.tx .waitM3
  | .m2 =>
    if s.blk.staMode = false ∧ c.bSetupLock then s.failed c .m2 wscErrorSetupLocked
    else s.hashed C c .eHash1 .eHash2 .waitM4
  | .m2D =>
    if s.blk.staMode then { s with state := .rxM2D }
    else { s.setRegs (s.blk.regs.put .selfConfigError [0, 0]) with state := .rxM2D }
  | .m3 => s.hashed C c .rHash1 .rHash2 .waitM5
  | .m4 => s.sent c.tx .waitM6
  | .m5 => s.sent c.tx .waitM7
  | .m6 => s.sent c.tx .waitM8
  | .m7 =>
    if s.blk.staMode = false ∨ s.blk.bConfiguredAP = false ∨
        (c.bForceSetAP ∧ s.blk.bEnableWpsV2 ∧ (s.blk.regs .peerVersion2).toList ≠ [0]) then
      { s with state := .waitDone }
    else { s with state := .configured }
  | .m8 =>
    { s with
      state :=
        if s.blk.staMode then .waitEapFail
        else if c.upnp then .configured
        else if c.isEntryApCli then .waitEapFail
        else .waitAck
      reComputePke := true }

/-- A message, and what its handler returns if it is taken. -/
def Registration.receive (m : Message) (msg : List UInt8) : Checked (Registration × Option Nat) :=
  if m.awaited s.state then
    processMessage C c.env (s.handed c m) msg m >>= fun processed =>
      let s := { s with blk := processed.1 }
      .ok (if processed.2 = wscErrorNoError then s.answered C c m else s.failed c m processed.2,
        some processed.2)
  else .ok (s, none)

end

end Mt7601.Wsc
