/-
# Data frames: the 802.11 header, the LLC/SNAP header, `RX_BLK`

What the receive and the transmit path of data frames share. A frame lies in memory that is
larger than the frame, and the source reads it through pointers: `pHeader` is the memory from the
802.11 header on, `pData` the distance of the data pointer from it. The fields of the header are
read from the octets where the source reads them (the build is little endian).
-/
import Mt7601.Lib.Octets

namespace Mt7601.Data

/-! ## 1. Constants -/

/-- `MAC_ADDR_LEN` -/
def macAddrLen : Nat := 6
/-- `LENGTH_802_11` -/
def length80211 : Nat := 24
/-- `LENGTH_802_3` -/
def length8023 : Nat := 14
/-- `LENGTH_802_1_H` -/
def length8021H : Nat := 8
/-- `RX_BUFFER_NORMSIZE` -/
def rxBufferNormSize : Nat := 3840
/-- `MAX_FRAME_SIZE` -/
def maxFrameSize : Nat := 2346
/-- `MGMT_DMA_BUFFER_SIZE` -/
def mgmtDmaBufferSize : Nat := 1600

/-- `BTYPE_DATA` and the others -/
def btypeMgmt : Nat := 0
def btypeCntl : Nat := 1
def btypeData : Nat := 2

/-- `SNAP_802_1H` -/
def snap8021H : List UInt8 := [0xAA, 0xAA, 0x03, 0x00, 0x00, 0x00]
/-- `SNAP_BRIDGE_TUNNEL` -/
def snapBridgeTunnel : List UInt8 := [0xAA, 0xAA, 0x03, 0x00, 0x00, 0xF8]
/-- `EAPOL` -/
def eapol : List UInt8 := [0x88, 0x8E]
/-- `IPX` -/
def ipx : List UInt8 := [0x81, 0x37]
/-- `APPLE_TALK` -/
def appleTalk : List UInt8 := [0x80, 0xF3]

/-! ## 2. `HEADER_802_11` -/

namespace Header

variable (pHeader : List UInt8)

/-- A bit of the frame control field. -/
def fcBit (i : Nat) : Bool := (pHeader.getD (i / 8) 0).toNat.testBit (i % 8)

/-- `FC.Type` -/
def type : Nat := (pHeader.getD 0 0).toNat / 4 % 4
/-- `FC.SubType` -/
def subType : Nat := (pHeader.getD 0 0).toNat / 16
/-- `FC.ToDs` -/
def toDs : Bool := fcBit pHeader 8
/-- `FC.FrDs` -/
def frDs : Bool := fcBit pHeader 9
/-- `FC.MoreFrag` -/
def moreFrag : Bool := fcBit pHeader 10
/-- `FC.Wep` -/
def wep : Bool := fcBit pHeader 14
/-- `FC.Order` -/
def order : Bool := fcBit pHeader 15
/-- `Addr2` -/
def addr2 : List UInt8 := Mem.read pHeader 10 macAddrLen
/-- `Addr3` -/
def addr3 : List UInt8 := Mem.read pHeader 16 macAddrLen
/-- `Frag` -/
def frag : Nat := (pHeader.getD 22 0).toNat % 16
/-- `Sequence` -/
def sequence : Nat := (pHeader.getD 22 0).toNat / 16 + 16 * (pHeader.getD 23 0).toNat

end Header

/-! ## 3. `RX_BLK` -/

/-- `RX_BLK`: the received frame and how far its headers have been taken off. -/
structure RxBlk where
  /-- the memory from `pHeader` on -/
  pHeader : List UInt8
  /-- `pData - pHeader` -/
  pData : Nat
  dataSize : UInt16
deriving Repr, DecidableEq

namespace RxBlk

/-- The octets from `pData` on that the block describes. -/
def payload (pRxBlk : RxBlk) : List UInt8 :=
  Mem.read pRxBlk.pHeader pRxBlk.pData pRxBlk.dataSize.toNat

/-- The octets that were taken off in front of `pData`. -/
def headers (pRxBlk : RxBlk) : List UInt8 :=
  Mem.read pRxBlk.pHeader 0 pRxBlk.pData

@[simp] theorem length_payload (pRxBlk : RxBlk) : pRxBlk.payload.length = pRxBlk.dataSize.toNat :=
  Mem.length_read _ _ _

@[simp] theorem length_headers (pRxBlk : RxBlk) : pRxBlk.headers.length = pRxBlk.pData :=
  Mem.length_read _ _ _

end RxBlk

end Mt7601.Data
