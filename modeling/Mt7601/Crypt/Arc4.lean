/-
# ARC4

`common/crypt_arc4.c`: the key schedule and the key stream. A context holds a permutation of the
256 octets and two indices; the text may be enciphered in place or moved towards the start of the
memory while it is.
-/
import Mt7601.Lib.Cipher
import Mt7601.Lib.Octets

namespace Mt7601.Crypt

/-- `ARC4_CTX_STRUC`; both indices are kept below 256. -/
structure Arc4Ctx where
  blockIndex1 : UInt8 := 0
  blockIndex2 : UInt8 := 0
  keyBlock : List UInt8 := (List.range 256).map UInt8.ofNat
  deriving DecidableEq

/-- `KeyBlock[i]` -/
def Arc4Ctx.look (ctx : Arc4Ctx) (i : UInt8) : UInt8 := ctx.keyBlock.getD i.toNat 0

/-- `KeyBlock[i] = KeyBlock[j]` and then `KeyBlock[j]` what `KeyBlock[i]` was. -/
def Arc4Ctx.exchange (ctx : Arc4Ctx) (i j : UInt8) : Arc4Ctx :=
  { ctx with keyBlock := (ctx.keyBlock.set i.toNat (ctx.look j)).set j.toNat (ctx.look i) }

/-- A pass of the key schedule, on the context and `SWAPIndex`. -/
def arc4Schedule (key : List UInt8) (blockIndex : Nat) (s : Arc4Ctx × UInt8) : Arc4Ctx × UInt8 :=
  let swapIndex :=
    s.2 + s.1.look (UInt8.ofNat blockIndex) + key.getD (blockIndex % key.length) 0
  (s.1.exchange (UInt8.ofNat blockIndex) swapIndex, swapIndex)

/-- `ARC4_INIT` -/
def arc4Init (key : List UInt8) : Arc4Ctx :=
  (Cipher.rounds (arc4Schedule key) (({} : Arc4Ctx), 0) (List.range 256)).1

/-- One octet of the key stream. -/
def Arc4Ctx.next (ctx : Arc4Ctx) : Arc4Ctx × UInt8 :=
  let i := ctx.blockIndex1 + 1
  let tempValue := ctx.look i
  let j := ctx.blockIndex2 + tempValue
  let ctx := { ctx with blockIndex1 := i, blockIndex2 := j }.exchange i j
  (ctx, ctx.look (tempValue + ctx.look i))

/-- A pass of the loop of `ARC4_Compute`, on the context and the memory. -/
def arc4Round (inputBlock outputBlock inputIndex : Nat) (s : Arc4Ctx × List UInt8) :
    Arc4Ctx × List UInt8 :=
  let next := s.1.next
  (next.1, Mem.write s.2 (outputBlock + inputIndex)
    [s.2.getD (inputBlock + inputIndex) 0 ^^^ next.2])

/-- `ARC4_Compute`; `inputBlock` and `outputBlock` are offsets into the memory. -/
def arc4Compute (ctx : Arc4Ctx) (mem : List UInt8) (inputBlock inputBlockSize outputBlock : Nat) :
    Arc4Ctx × List UInt8 :=
  Cipher.rounds (arc4Round inputBlock outputBlock) (ctx, mem) (List.range inputBlockSize)

end Mt7601.Crypt
