/-
# Wi-Fi Protected Setup: constants

The states of a WPS session, as `include/wsc.h` numbers them, and the error codes of
`include/wsc_tlv.h` that the message handlers return.
-/
import Mathlib.Data.Nat.Notation

namespace Mt7601.Wsc

/-- `WSC_STATE` -/
inductive WscState
  | off
  | init
  | start
  | fail
  | configured
  | linkUp
  | sendEapolStart
  | waitEapolStart
  | waitUpnpStart
  | waitReqId
  | waitRespId
  | waitWscStart
  | waitM1
  | sentM1
  | sentM2D
  | waitM2
  | rxM2D
  | waitPin
  | waitM3
  | waitM4
  | waitM5
  | waitM6
  | waitM7
  | waitM8
  | waitDone
  | waitAck
  | waitEapFail
  | waitDisconn
deriving DecidableEq, Repr

/-- `WSC_ERROR_NO_ERROR` -/
def wscErrorNoError : Nat := 0
/-- `WSC_ERROR_DEV_PWD_AUTH_FAIL` -/
def wscErrorDevPwdAuthFail : Nat := 18
/-- `WSC_ERROR_HASH_FAIL` -/
def wscErrorHashFail : Nat := 254
/-- `WSC_ERROR_HMAC_FAIL` -/
def wscErrorHmacFail : Nat := 255

end Mt7601.Wsc
