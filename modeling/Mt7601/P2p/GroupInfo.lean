/-
# The peers of a group

`P2pParseGroupInfoAttribute` (`common/p2p_packet.c`): the clients that a group owner lists are
entered in the table of peers (`P2pGroupTabSearch`, `P2pGroupTabInsert`, `P2pGroupTabDelete` of
`common/p2p_table.c`, without `RT_CFG80211_SUPPORT`). Of an entry there is what these functions
look at, and what a descriptor is copied to.
-/
import Mt7601.P2p.Attributes

namespace Mt7601.P2p

/-! ## 1. The table -/

/-- `P2P_CLIENT_STATE` -/
inductive P2pClientState
  | none
  | discovery
  | discoveryGo
  | discoveryClient
  | discoveryUnknown
  | clientDiscoCommand
  | waitGoDiscoAck
  | waitGoDiscoAckSuccess
  | goDiscoCommand
  | inviteCommand
  | connectCommand
  | provisionCommand
  | serviceDiscoverInitCommand
  | serviceComebackCommand
  | sentInviteReq
  | sentProvisionReq
  | sentProvisionRsp
  | waitRevokeInviteRspAck
  | revokeInviteRspAckSuccess
  | sentGoNegReq
  | gotGoRspInfoUnavai
  | waitGoComfirm
  | waitGoComfirmAck
  | gotGoComfirm
  | goComfirmAckSuccess
  | reinvokeInviteTillConfigTime
  | goDone
  | goWps
  | goAuth
  | goAssoc
  | clientWps
  | clientWpsDone
  | clientAuth
  | clientAssoc
  | clientOperating
  | clientAbsence
  | clientScan
  | clientFind
  | goOperating
  | goAbsence
  | goScan
  | goFind
  | nonP2pPsk
  | nonP2pWps
  deriving DecidableEq, Repr

/-- `RT_P2P_CLIENT_ENTRY` -/
structure P2pEntry where
  p2pClientState : P2pClientState
  addr : Octets 6
  bssid : Octets 6
  interfaceAddr : Octets 6
  devCapability : UInt8
  configMethod : Nat
  primaryDevType : Octets 8
  numSecondaryType : UInt8
  deviceName : Octets 32
  deviceNameLen : Nat
  myGoIndex : Nat

/-- `MAX_P2P_GROUP_SIZE` -/
def maxP2pGroupSize : Nat := 30

/-- `RT_P2P_TABLE` -/
structure P2pTable where
  clientNumber : UInt8
  client : Fin maxP2pGroupSize → P2pEntry

def P2pTable.set (t : P2pTable) (i : Fin maxP2pGroupSize) (e : P2pEntry) : P2pTable :=
  { t with client := fun j => if j = i then e else t.client j }

/-- An address of a group, of all zeros or of all ones is no peer's. -/
def isPeerAddr (addr : List UInt8) : Bool :=
  (addr.getD 0 0).toNat % 2 = 0 ∧ addr ≠ List.replicate 6 0xff ∧ addr ≠ List.replicate 6 0

/-- `P2pGroupTabSearch`: the last entry with the address. -/
def p2pGroupTabSearch (t : P2pTable) (addr : List UInt8) : Option (Fin maxP2pGroupSize) :=
  if isPeerAddr addr then
    (List.finRange maxP2pGroupSize).reverse.find? fun i =>
      ((t.client i).bssid.toList = addr ∨ (t.client i).interfaceAddr.toList = addr ∨
        (t.client i).addr.toList = addr) ∧ (t.client i).p2pClientState ≠ .none
  else none

/-- `P2pGroupTabInsert`, without an SSID: the entry with the address or the first free one. -/
def p2pGroupTabInsert (t : P2pTable) (addr : Octets 6) (state : P2pClientState) :
    P2pTable × Option (Fin maxP2pGroupSize) :=
  if addr = .zero 6 ∨ (addr.toList.getD 0 0).toNat % 2 = 1 then (t, none)
  else
    match (List.finRange maxP2pGroupSize).find? fun i =>
        (t.client i).p2pClientState = .none ∨ (t.client i).addr = addr with
    | none => (t, none)
    | some i =>
      if (t.client i).p2pClientState = .none then
        ({ t.set i { t.client i with addr, p2pClientState := state, myGoIndex := 0xff } with
            clientNumber := t.clientNumber + 1 }, some i)
      else (t.set i { t.client i with p2pClientState := state }, some i)

/-- The address of an entry that was deleted. -/
def strangeAddr : Octets 6 := ⟨[0, 0, 0, 0x55, 0, 0], rfl⟩

/-- `P2pGroupTabDelete` -/
def p2pGroupTabDelete (t : P2pTable) (i : Fin maxP2pGroupSize) : P2pTable :=
  { t.set i
      { p2pClientState := .none, addr := strangeAddr, bssid := strangeAddr
        interfaceAddr := strangeAddr, devCapability := (t.client i).devCapability
        configMethod := 0, primaryDevType := .zero 8, numSecondaryType := 0, deviceName := .zero 32
        deviceNameLen := 0, myGoIndex := 0xff } with
    clientNumber :=
      if 0 < t.clientNumber ∧ (t.client i).p2pClientState ≠ .none then t.clientNumber - 1
      else t.clientNumber }

/-! ## 2. A changed topology -/

/-- Entries that are in use for something else. -/
def isBusy (state : P2pClientState) : Bool :=
  state = .provisionCommand ∨ state = .connectCommand ∨
    P2pClientState.discoveryClient.ctorIdx < state.ctorIdx

/-- The loop that deletes the entries from an index on. The second component says that the number
of entries has come down to the first index, on which the parser returns. -/
def deleteFrom (first : Nat) (t : P2pTable) : List (Fin maxP2pGroupSize) → P2pTable × Bool
  | [] => (t, false)
  | i :: l =>
    if isBusy (t.client i).p2pClientState then (t, false)
    else
      let t := p2pGroupTabDelete t i
      if t.clientNumber.toNat = first then (t, true) else deleteFrom first t l

/-- The entry of a client that is listed by the owner at `p2pindex`, and what it makes of the table:
what is known of it as something else than a client is given up first. -/
def placeClient (current : Octets 6) (t : P2pTable) (p2pindex : Nat) (addr : Octets 6) :
    (P2pTable × Option (Fin maxP2pGroupSize)) ⊕ P2pTable :=
  let known := p2pGroupTabSearch t addr.toList
  let place (t : P2pTable) (idx : Option (Fin maxP2pGroupSize)) :
      (P2pTable × Option (Fin maxP2pGroupSize)) ⊕ P2pTable :=
    if idx.isNone ∧ t.clientNumber.toNat < maxP2pGroupSize - 1 ∧ addr ≠ current then
      .inl (p2pGroupTabInsert t addr .discoveryClient)
    else .inl (t, idx)
  match known with
  | none => place t none
  | some i =>
    let state := (t.client i).p2pClientState
    if state ≠ .discoveryClient ∧ state ≠ .clientDiscoCommand then
      let first := if p2pindex < i.val then p2pindex + 1 else i.val
      let (t, returned) :=
        deleteFrom first t ((List.finRange maxP2pGroupSize).filter (first ≤ ·.val))
      if returned then .inr t else place t (p2pGroupTabSearch t addr.toList)
    else place t (some i)

/-! ## 3. The parser -/

/-- The surroundings of the parser: its own address, the index of the owner in the table, and what is
done for a peer that is to be connected with. -/
structure GroupEnv where
  currentAddress : Octets 6
  p2pindex : Nat
  connectAfterScan : P2pTable → Fin maxP2pGroupSize → P2pTable

/-- `NumSecondaryType * P2P_DEVICE_TYPE_LEN` of the descriptor at an offset. -/
def secondaryLen (msg : Body) (pos : Nat) : Nat := (octetAt msg (pos + 24)).toNat * 8

/-- A descriptor (`P2P_CLIENT_INFO_DESC`) copied to its entry. -/
def storeClient (msg : Body) (pos : Nat) (p2pindex : Nat) (e : P2pEntry) : Checked P2pEntry := do
  let devCapability ← readOctet msg (pos + 13)
  let configMethod ← readBe16 msg (pos + 14)
  let primaryDevType ← moveMemory msg (pos + 16) 8 e.primaryDevType 0
  let numSecondaryType ← readOctet msg (pos + 24)
  let _ ← readBe16 msg (pos + 25 + secondaryLen msg pos)
  let wscLen ← readBe16 msg (pos + 27 + secondaryLen msg pos)
  let deviceName ← moveMemory msg (pos + 29 + secondaryLen msg pos) 32 e.deviceName 0
  let deviceNameLen := if wscLen ≤ 32 then wscLen else e.deviceNameLen
  -- the zero behind the name
  Checked.access 32 deviceNameLen 1
  return { e with
    p2pClientState :=
      if e.p2pClientState = .clientDiscoCommand then .clientDiscoCommand else .discoveryClient
    devCapability, configMethod, primaryDevType, numSecondaryType, deviceNameLen
    deviceName := .ofList 32 (Mem.write deviceName.toList deviceNameLen [0])
    myGoIndex := p2pindex }

/-- The address of a descriptor. -/
def devAddrAt (msg : Body) (pos : Nat) : Octets 6 := .ofList 6 (Mem.read msg (pos + 1) 6)

/-- The loop over the descriptors of an attribute. The parser returns with a table if it is left. -/
def clientLoop (env : GroupEnv) (msg : Body) (t : P2pTable) (pos groupInfoLen : Nat) :
    Checked (P2pTable ⊕ P2pTable) :=
  if 0 < groupInfoLen then do
    let len ← readOctet msg pos
    if len < 23 ∨ groupInfoLen < len.toNat then return .inl t
    else do
      Checked.access msg.length (pos + 1) 6
      match placeClient env.currentAddress t env.p2pindex (devAddrAt msg pos) with
      | .inr t => return .inr t
      | .inl (t, none) =>
        clientLoop env msg t (pos + 1 + len.toNat) (groupInfoLen - (len.toNat + 1))
      | .inl (t, some i) => do
        let e ← storeClient msg pos env.p2pindex (t.client i)
        clientLoop env msg (env.connectAfterScan (t.set i e) i) (pos + 1 + len.toNat)
          (groupInfoLen - (len.toNat + 1))
  else return .inl t
termination_by groupInfoLen
decreasing_by all_goals exact Nat.sub_lt ‹_› (Nat.succ_pos _)

def groupInfoAttr (env : GroupEnv) (msg : Body) (t : P2pTable) (a : Attr) :
    Checked (P2pTable ⊕ P2pTable) :=
  if SubId.ofEid a.eid = some .groupInfo then clientLoop env msg t (a.octet 0) a.len
  else return .inl t

/-- The first element for Wi-Fi Direct is the last it looks at. -/
def firstElement (env : GroupEnv) (msg : Body) (t : P2pTable) (off : Nat) :
    Checked ((P2pTable × Bool) ⊕ P2pTable) := do
  if ← readEqual msg wifidirectOui (off + 2) then
    match ← wifiDirectAttrs msg (groupInfoAttr env msg) t off with
    | .inr t => return .inr t
    | .inl t => return .inl (t, false)
  else return .inl (t, true)

/-- `P2pParseGroupInfoAttribute`, with the table it leaves. -/
def p2pParseGroupInfoAttribute (env : GroupEnv) (msg : Body) (t : P2pTable) :
    Checked (Bool × P2pTable) := do
  match ← elementLoop msg (firstElement env msg) t 0 msg.length with
  | .inl t => return (true, t)
  | .inr t => return (false, t)

end Mt7601.P2p
