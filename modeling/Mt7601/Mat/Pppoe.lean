/-
# PPPoE discovery through the MAC address translation

`MATProto_PPPoEDis_Tx` and `MATProto_PPPoEDis_Rx` of `common/cmm_mat_pppoe.c`. Behind the driver
there are several stations, and in the air they have one address. So a discovery packet that a
station sends gets a tag with the station's name, unless it has one of its own, and the tag that
the peer sends back tells whom the answer is for.

An access to the packet is checked against its size, and a length against a subtraction that would
wrap: what the handlers do without being stopped is what they do inside the packet.
-/
import Mt7601.Lib.Checked
import Mt7601.Mat.UidMac

namespace Mt7601.Mat

open Ba (Ulong OsHz)
open Checked (access sub Safe)

/-! ## 1. Discovery packets -/

/-- A packet that the engine translates: `pLayerHdr` is behind an Ethernet header. -/
structure DisPacket where
  data : List UInt8
  layer : Nat
  eth : 14 ≤ layer ∧ layer ≤ data.length

def pppoeCodePadi : UInt8 := 0x09
def pppoeCodePado : UInt8 := 0x07
def pppoeCodePadr : UInt8 := 0x19
def pppoeCodePads : UInt8 := 0x65
def pppoeCodePadt : UInt8 := 0xa7
def pppoeTagIdHostUniq : UInt16 := 0x0103
def pppoeTagIdAcCookie : UInt16 := 0x0104

/-- `OS_NTOHS` of what stands at an offset. -/
def wordAt (data : List UInt8) (off : Nat) : Nat := beVal (Mem.read data off 2)

/-- `OS_HTONS` into a `UINT16`. -/
def htons (n : Nat) : List UInt8 := [UInt8.ofNat (n / 256), UInt8.ofNat n]

namespace DisPacket

variable (p : DisPacket)

def version : UInt8 := p.data.getD p.layer 0
def code : UInt8 := p.data.getD (p.layer + 1) 0
def sesID : Nat := wordAt p.data (p.layer + 2)
def payloadLen : Nat := wordAt p.data (p.layer + 4)
def dstMac : Mac := Octets.ofList 6 p.data
def srcMac : Mac := Octets.ofList 6 (p.data.drop 6)

end DisPacket

/-- The version and the code, as both handlers read them. -/
def disCode (p : DisPacket) : Checked (Option UInt8) := do
  access p.data.length p.layer 1
  if p.version ≠ 0x11 then pure none
  else do
    access p.data.length (p.layer + 1) 1
    pure (some p.code)

/-- The loop of both handlers: where the content of the tag is, and its length. `leftLen` is a
`UINT16`, and the packet's own length does not come into it. -/
def findTag (data : List UInt8) (id : UInt16) (off leftLen : Nat) : Checked (Option (Nat × Nat)) :=
  if leftLen = 0 then .ok none
  else if off + 4 ≤ data.length then
    let tagLen := wordAt data (off + 2)
    if wordAt data off = id.toNat ∧ 0 < tagLen then .ok (some (off + 4, tagLen))
    else findTag data id (off + (tagLen + 4)) ((leftLen + 131072 - (tagLen + 4)) % 65536)
  else .error .outside
termination_by data.length - off

/-! ## 2. `MATProto_PPPoEDis_Rx` -/

/-- `findTag` of a packet that is received. -/
def rxTag (code : UInt8) : Option UInt16 :=
  if code = pppoeCodePado ∨ code = pppoeCodePads then some pppoeTagIdHostUniq
  else if code = pppoeCodePadr then some pppoeTagIdAcCookie
  else none

/-- What a received packet comes to: the packet, the address it is for, and what the table of the
sessions is told. -/
structure RxResult where
  tb : UidMacMappingTable
  data : List UInt8
  inMac : Option Mac := none
  ses : Option (Mac × Nat × Mac) := none

section

variable (tb : UidMacMappingTable) (now : Ulong) (p : DisPacket)

/-- The removal of a tag of `tagLen` octets at `pTagContent`. -/
def removeTag (pTagContent tagLen : Nat) : Checked (List UInt8) := do
  let removedTagLen := 4 + tagLen
  let tailLen ← sub (p.data.length - pTagContent) removedTagLen
  access p.data.length (pTagContent + tagLen) tailLen
  let moved := Mem.write p.data (pTagContent - 4) (Mem.read p.data (pTagContent + tagLen) tailLen)
  let cut := moved.take (p.data.length - removedTagLen)
  pure (Mem.write cut (p.layer + 4) (htons (p.payloadLen + 65536 - removedTagLen)))

/-- The end of the handler, from `UidMacTableLookUp` on. -/
def rxFound (pTagContent tagLen : Nat) : Checked RxResult :=
  if tb.valid then do
    access p.data.length pTagContent tagLen
    let looked := tb.uidMacTableLookUp ((p.data.drop pTagContent).take tagLen) now
    match looked.2 with
    | none => pure { tb := looked.1, data := p.data }
    | some pEntry => do
      let data ← if pEntry.uIDAddByUs then removeTag p pTagContent tagLen else pure p.data
      pure
        { tb := looked.1
          data := data
          inMac := some pEntry.macAddr
          ses :=
            if p.code = pppoeCodePads then some (pEntry.macAddr, p.sesID, p.srcMac) else none }
  else pure { tb := tb, data := p.data }

/-- `getInMac` is the look-up in the table of the sessions. -/
def matProtoPPPoEDisRx (getInMac : Mac → Nat → Option Mac) : Checked RxResult := do
  match ← disCode p with
  | none => pure { tb := tb, data := p.data }
  | some code =>
    if code = pppoeCodePadt then do
      access p.data.length (p.layer + 2) 2
      pure { tb := tb, data := p.data, inMac := getInMac p.srcMac p.sesID }
    else
      match rxTag code with
      | none => pure { tb := tb, data := p.data }
      | some id => do
        access p.data.length (p.layer + 2) 4
        match ← findTag p.data id (p.layer + 6) p.payloadLen with
        | none => pure { tb := tb, data := p.data }
        | some found => rxFound tb now p found.1 (min 6 found.2)

end

/-! ## 3. `MATProto_PPPoEDis_Tx` -/

/-- `findTag` of a packet that is sent. -/
def txTag (code : UInt8) : Option UInt16 :=
  if code = pppoeCodePadi ∨ code = pppoeCodePadr then some pppoeTagIdHostUniq
  else if code = pppoeCodePado ∨ code = pppoeCodePads then some pppoeTagIdAcCookie
  else none

/-- What the handler meets: the clock, memory for an entry, a packet to work on, which is a copy of
a cloned one, and the ten octets that the packet is extended by. -/
structure TxEnv where
  now : Ulong
  hz : OsHz
  memory : Bool
  copied : Bool
  tail : Option (Octets 10)

/-- What a packet to send comes to, and the entry whose tag has been inserted. -/
structure TxResult where
  tb : UidMacMappingTable
  data : List UInt8
  ours : Option UidMacMappingEntry := none
  ses : Option (Mac × Nat × Mac) := none

/-- The tag of an entry. -/
def tagOf (e : UidMacMappingEntry) : List UInt8 :=
  [0x01, if e.isServer then 0x04 else 0x03, 0x00, 6] ++ e.uIDStr.toList

section

variable (tb : UidMacMappingTable) (env : TxEnv) (p : DisPacket)

/-- The call of `UidMacTableUpdate`. -/
def uidUpdate (found : Option (Nat × Nat)) : UidUpdate where
  pInMac := p.srcMac
  pOutMac := p.dstMac
  pTagInfo := found.map fun tag => (p.data.drop tag.1).take (min 6 tag.2)
  short := by
    intro tag htag
    obtain ⟨f, -, rfl⟩ := Option.mem_map.1 htag
    simp only [List.length_take]
    omega
  isServer := p.code = pppoeCodePado ∨ p.code = pppoeCodePads
  now := env.now
  hz := env.hz
  memory := env.memory

/-- The insertion of the tag of an entry. -/
def insertTag (tail : Octets 10) (pEntry : UidMacMappingEntry) : Checked (List UInt8) := do
  let tailHead := min p.data.length (p.layer + 4 + p.payloadLen)
  access (p.data.length + 10) tailHead 10
  pure (Mem.write (Mem.write (p.data ++ tail.toList) tailHead (tagOf pEntry)) (p.layer + 4)
    (htons (p.payloadLen + 4 + 6)))

/-- What `SesMacTableUpdate` is called with. -/
def txSes : Option (Mac × Nat × Mac) :=
  if p.code = pppoeCodePads then some (p.srcMac, p.sesID, p.dstMac) else none

/-- The end of the handler, from `UidMacTableUpdate` on, which reads the tag of a valid table. -/
def txRecord (found : Option (Nat × Nat)) : Checked TxResult := do
  let tag := found.getD (0, 0)
  access p.data.length tag.1 (if tb.valid then min 6 tag.2 else 0)
  let updated := tb.uidMacTableUpdate (uidUpdate env p found)
  match updated.2, found with
  | some pEntry, none =>
    if env.copied then
      match env.tail with
      | some tail => do
        let data ← insertTag p tail pEntry
        pure { tb := updated.1, data := data, ours := some pEntry, ses := txSes p }
      | none => pure { tb := updated.1, data := p.data, ses := txSes p }
    else pure { tb := updated.1, data := p.data }
  | _, _ => pure { tb := updated.1, data := p.data, ses := txSes p }

def matProtoPPPoEDisTx : Checked TxResult := do
  match ← disCode p with
  | none => pure { tb := tb, data := p.data }
  | some code =>
    match txTag code with
    | none => pure { tb := tb, data := p.data }
    | some id => do
      access p.data.length (p.layer + 2) 4
      let found ← findTag p.data id (p.layer + 6) p.payloadLen
      txRecord tb env p found

end

end Mt7601.Mat
