/-
# TKIP

`common/cmm_tkip.c`: the Michael code, the key mixing and `RTMPSoftDecryptTKIP`. The text stands
behind an IV header of eight octets; behind it stand a Michael code of eight and an ICV of four.

Michael works on words that are an `ULONG` wide, so the width of that is a parameter here. The
receiver compares the ICV before it takes the Michael code off: a frame without room for the code is
safe only if its ICV is wrong (`rtmpSoftDecryptTkip_short`).
-/
import Mt7601.Crypt.Ccmp
import Mt7601.Crypt.Wep

namespace Mt7601.Crypt

open Wpa (CipherKey)

/-- `LEN_TKIP_IV_HDR` -/
def lenTkipIvHdr : Nat := 8

/-! ## 1. Michael -/

section

variable {w : Nat}

/-- `ROL32` -/
def rol32 (a : BitVec w) (n : Nat) : BitVec w :=
  (a <<< n) ||| ((a >>> (32 - n)) &&& ((1 <<< n) - 1))

/-- `ROR32` -/
def ror32 (a : BitVec w) (n : Nat) : BitVec w := rol32 a (32 - n)

/-- `uChar << n`, of an `int`, brought to the width of an `ULONG`. -/
def charShift (w : Nat) (uChar : UInt8) (n : Nat) : BitVec w :=
  (uChar.toBitVec.setWidth 32 <<< n).signExtend w

/-- `RTMPTkipGetUInt32` -/
def rtmpTkipGetUInt32 (w : Nat) (pMicKey : List UInt8) : BitVec w :=
  charShift w (pMicKey.getD 0 0) 0 ||| charShift w (pMicKey.getD 1 0) 8 |||
    charShift w (pMicKey.getD 2 0) 16 ||| charShift w (pMicKey.getD 3 0) 24

/-- `RTMPTkipPutUInt32` -/
def rtmpTkipPutUInt32 (val : BitVec w) : List UInt8 :=
  [⟨(val &&& 0xff).setWidth 8⟩, ⟨(val >>> 8 &&& 0xff).setWidth 8⟩,
    ⟨(val >>> 16 &&& 0xff).setWidth 8⟩, ⟨(val >>> 24 &&& 0xff).setWidth 8⟩]

/-- `TKIP_KEY_INFO`, the fields of the Michael code. -/
structure TkipKeyInfo (w : Nat) where
  k0 : BitVec w
  k1 : BitVec w
  l : BitVec w
  r : BitVec w
  m : BitVec w := 0
  nBytesInM : Nat := 0
  deriving DecidableEq

/-- `RTMPTkipSetMICKey` -/
def rtmpTkipSetMicKey (w : Nat) (pMicKey : List UInt8) : TkipKeyInfo w where
  k0 := rtmpTkipGetUInt32 w pMicKey
  k1 := rtmpTkipGetUInt32 w (pMicKey.drop 4)
  l := rtmpTkipGetUInt32 w pMicKey
  r := rtmpTkipGetUInt32 w (pMicKey.drop 4)

/-- The word is full. -/
def TkipKeyInfo.mix (pTkip : TkipKeyInfo w) : TkipKeyInfo w :=
  let l := pTkip.l ^^^ pTkip.m
  let r := pTkip.r ^^^ rol32 l 17
  let l := l + r
  let r := r ^^^ (((l &&& 0xff00ff00) >>> 8) ||| ((l &&& 0x00ff00ff) <<< 8))
  let l := l + r
  let r := r ^^^ rol32 l 3
  let l := l + r
  let r := r ^^^ ror32 l 2
  let l := l + r
  { pTkip with l := l, r := r, m := 0, nBytesInM := 0 }

/-- `RTMPTkipAppendByte` -/
def rtmpTkipAppendByte (pTkip : TkipKeyInfo w) (uChar : UInt8) : TkipKeyInfo w :=
  let pTkip :=
    { pTkip with
      m := pTkip.m ||| charShift w uChar (8 * pTkip.nBytesInM)
      nBytesInM := pTkip.nBytesInM + 1 }
  if pTkip.nBytesInM ≥ 4 then pTkip.mix else pTkip

/-- `RTMPTkipAppend` -/
def rtmpTkipAppend (pTkip : TkipKeyInfo w) (pSrc : List UInt8) : TkipKeyInfo w :=
  pSrc.foldl rtmpTkipAppendByte pTkip

/-- Zeroes until the length is a multiple of four, which it is after at most three. -/
def tkipZeroes : Nat → TkipKeyInfo w → TkipKeyInfo w
  | 0, pTkip => pTkip
  | n + 1, pTkip =>
    if pTkip.nBytesInM ≠ 0 then tkipZeroes n (rtmpTkipAppendByte pTkip 0) else pTkip

/-- `RTMPTkipGetMIC` -/
def rtmpTkipGetMic (pTkip : TkipKeyInfo w) : List UInt8 :=
  let pTkip := tkipZeroes 4 (rtmpTkipAppend pTkip [0x5a, 0, 0, 0, 0])
  rtmpTkipPutUInt32 pTkip.l ++ rtmpTkipPutUInt32 pTkip.r

/-- `RTMPInitMICEngine` -/
def rtmpInitMicEngine (w : Nat) (pDA pSA : List UInt8) (userPriority : UInt8)
    (pMicKey : List UInt8) : TkipKeyInfo w :=
  rtmpTkipAppend (rtmpTkipSetMicKey w pMicKey) (pDA ++ pSA ++ [userPriority, 0, 0, 0])

/-- The code of no octets, under the key of zeroes. -/
example : rtmpTkipGetMic (rtmpTkipSetMicKey 64 [0, 0, 0, 0, 0, 0, 0, 0]) =
      [0x82, 0x92, 0x5c, 0x1c, 0xa1, 0xd1, 0x30, 0xb8] ∧
    rtmpTkipGetMic (rtmpTkipSetMicKey 32 [0, 0, 0, 0, 0, 0, 0, 0]) =
      [0x82, 0x92, 0x5c, 0x1c, 0xa1, 0xd1, 0x30, 0xb8] := by
  decide

end

/-! ## 2. The key of a frame -/

/-- `Tkip_Sbox_Lower` -/
def tkipSboxLower : List UInt32 :=
  [0xa5, 0x84, 0x99, 0x8d, 0x0d, 0xbd, 0xb1, 0x54, 0x50, 0x03, 0xa9, 0x7d, 0x19, 0x62, 0xe6, 0x9a,
    0x45, 0x9d, 0x40, 0x87, 0x15, 0xeb, 0xc9, 0x0b, 0xec, 0x67, 0xfd, 0xea, 0xbf, 0xf7, 0x96, 0x5b,
    0xc2, 0x1c, 0xae, 0x6a, 0x5a, 0x41, 0x02, 0x4f, 0x5c, 0xf4, 0x34, 0x08, 0x93, 0x73, 0x53, 0x3f,
    0x0c, 0x52, 0x65, 0x5e, 0x28, 0xa1, 0x0f, 0xb5, 0x09, 0x36, 0x9b, 0x3d, 0x26, 0x69, 0xcd, 0x9f,
    0x1b, 0x9e, 0x74, 0x2e, 0x2d, 0xb2, 0xee, 0xfb, 0xf6, 0x4d, 0x61, 0xce, 0x7b, 0x3e, 0x71, 0x97,
    0xf5, 0x68, 0x00, 0x2c, 0x60, 0x1f, 0xc8, 0xed, 0xbe, 0x46, 0xd9, 0x4b, 0xde, 0xd4, 0xe8, 0x4a,
    0x6b, 0x2a, 0xe5, 0x16, 0xc5, 0xd7, 0x55, 0x94, 0xcf, 0x10, 0x06, 0x81, 0xf0, 0x44, 0xba, 0xe3,
    0xf3, 0xfe, 0xc0, 0x8a, 0xad, 0xbc, 0x48, 0x04, 0xdf, 0xc1, 0x75, 0x63, 0x30, 0x1a, 0x0e, 0x6d,
    0x4c, 0x14, 0x35, 0x2f, 0xe1, 0xa2, 0xcc, 0x39, 0x57, 0xf2, 0x82, 0x47, 0xac, 0xe7, 0x2b, 0x95,
    0xa0, 0x98, 0xd1, 0x7f, 0x66, 0x7e, 0xab, 0x83, 0xca, 0x29, 0xd3, 0x3c, 0x79, 0xe2, 0x1d, 0x76,
    0x3b, 0x56, 0x4e, 0x1e, 0xdb, 0x0a, 0x6c, 0xe4, 0x5d, 0x6e, 0xef, 0xa6, 0xa8, 0xa4, 0x37, 0x8b,
    0x32, 0x43, 0x59, 0xb7, 0x8c, 0x64, 0xd2, 0xe0, 0xb4, 0xfa, 0x07, 0x25, 0xaf, 0x8e, 0xe9, 0x18,
    0xd5, 0x88, 0x6f, 0x72, 0x24, 0xf1, 0xc7, 0x51, 0x23, 0x7c, 0x9c, 0x21, 0xdd, 0xdc, 0x86, 0x85,
    0x90, 0x42, 0xc4, 0xaa, 0xd8, 0x05, 0x01, 0x12, 0xa3, 0x5f, 0xf9, 0xd0, 0x91, 0x58, 0x27, 0xb9,
    0x38, 0x13, 0xb3, 0x33, 0xbb, 0x70, 0x89, 0xa7, 0xb6, 0x22, 0x92, 0x20, 0x49, 0xff, 0x78, 0x7a,
    0x8f, 0xf8, 0x80, 0x17, 0xda, 0x31, 0xc6, 0xb8, 0xc3, 0xb0, 0x77, 0x11, 0xcb, 0xfc, 0xd6, 0x3a]

/-- `Tkip_Sbox_Upper` -/
def tkipSboxUpper : List UInt32 :=
  [0xc6, 0xf8, 0xee, 0xf6, 0xff, 0xd6, 0xde, 0x91, 0x60, 0x02, 0xce, 0x56, 0xe7, 0xb5, 0x4d, 0xec,
    0x8f, 0x1f, 0x89, 0xfa, 0xef, 0xb2, 0x8e, 0xfb, 0x41, 0xb3, 0x5f, 0x45, 0x23, 0x53, 0xe4, 0x9b,
    0x75, 0xe1, 0x3d, 0x4c, 0x6c, 0x7e, 0xf5, 0x83, 0x68, 0x51, 0xd1, 0xf9, 0xe2, 0xab, 0x62, 0x2a,
    0x08, 0x95, 0x46, 0x9d, 0x30, 0x37, 0x0a, 0x2f, 0x0e, 0x24, 0x1b, 0xdf, 0xcd, 0x4e, 0x7f, 0xea,
    0x12, 0x1d, 0x58, 0x34, 0x36, 0xdc, 0xb4, 0x5b, 0xa4, 0x76, 0xb7, 0x7d, 0x52, 0xdd, 0x5e, 0x13,
    0xa6, 0xb9, 0x00, 0xc1, 0x40, 0xe3, 0x79, 0xb6, 0xd4, 0x8d, 0x67, 0x72, 0x94, 0x98, 0xb0, 0x85,
    0xbb, 0xc5, 0x4f, 0xed, 0x86, 0x9a, 0x66, 0x11, 0x8a, 0xe9, 0x04, 0xfe, 0xa0, 0x78, 0x25, 0x4b,
    0xa2, 0x5d, 0x80, 0x05, 0x3f, 0x21, 0x70, 0xf1, 0x63, 0x77, 0xaf, 0x42, 0x20, 0xe5, 0xfd, 0xbf,
    0x81, 0x18, 0x26, 0xc3, 0xbe, 0x35, 0x88, 0x2e, 0x93, 0x55, 0xfc, 0x7a, 0xc8, 0xba, 0x32, 0xe6,
    0xc0, 0x19, 0x9e, 0xa3, 0x44, 0x54, 0x3b, 0x0b, 0x8c, 0xc7, 0x6b, 0x28, 0xa7, 0xbc, 0x16, 0xad,
    0xdb, 0x64, 0x74, 0x14, 0x92, 0x0c, 0x48, 0xb8, 0x9f, 0xbd, 0x43, 0xc4, 0x39, 0x31, 0xd3, 0xf2,
    0xd5, 0x8b, 0x6e, 0xda, 0x01, 0xb1, 0x9c, 0x49, 0xd8, 0xac, 0xf3, 0xcf, 0xca, 0xf4, 0x47, 0x10,
    0x6f, 0xf0, 0x4a, 0x5c, 0x38, 0x57, 0x73, 0x97, 0xcb, 0xa1, 0xe8, 0x3e, 0x96, 0x61, 0x0d, 0x0f,
    0xe0, 0x7c, 0x71, 0xcc, 0x90, 0x06, 0xf7, 0x1c, 0xc2, 0x6a, 0xae, 0x69, 0x17, 0x99, 0x3a, 0x27,
    0xd9, 0xeb, 0x2b, 0x22, 0xd2, 0xa9, 0x07, 0x33, 0x2d, 0x3c, 0x15, 0xc9, 0x87, 0xaa, 0x50, 0xa5,
    0x03, 0x59, 0x09, 0x1a, 0x65, 0xd7, 0x84, 0xd0, 0x82, 0x29, 0x5a, 0x1e, 0x7b, 0xa8, 0x6d, 0x2c]

/-- `tkip_sbox` -/
def tkipSbox (index : UInt32) : UInt32 :=
  let indexLow := (index % 256).toNat
  let indexHigh := ((index >>> 8) % 256).toNat
  let left := tkipSboxLower.getD indexLow 0 + tkipSboxUpper.getD indexLow 0 * 256
  let right := tkipSboxUpper.getD indexHigh 0 + tkipSboxLower.getD indexHigh 0 * 256
  left ^^^ right

/-- `rotr1` -/
def rotr1 (a : UInt32) : UInt32 :=
  (if a &&& 0x01 = 0x01 then (a >>> 1) ||| 0x8000 else (a >>> 1) &&& 0x7fff) % 65536

/-- `256 * key[i + 1] + key[i]` -/
def keyWord (key : List UInt8) (i : Nat) : UInt32 :=
  256 * (key.getD (i + 1) 0).toUInt32 + (key.getD i 0).toUInt32

/-- `p1k` -/
structure P1k where
  p0 : UInt32
  p1 : UInt32
  p2 : UInt32
  p3 : UInt32
  p4 : UInt32
  deriving DecidableEq

/-- A pass of the loop of the first phase. -/
def tkipPhase1 (key : List UInt8) (i : Nat) (p : P1k) : P1k :=
  let j := 2 * (i % 2)
  let p0 := (p.p0 + tkipSbox ((p.p4 ^^^ keyWord key j) % 65536)) % 65536
  let p1 := (p.p1 + tkipSbox ((p0 ^^^ keyWord key (4 + j)) % 65536)) % 65536
  let p2 := (p.p2 + tkipSbox ((p1 ^^^ keyWord key (8 + j)) % 65536)) % 65536
  let p3 := (p.p3 + tkipSbox ((p2 ^^^ keyWord key (12 + j)) % 65536)) % 65536
  let p4 := (p.p4 + tkipSbox ((p3 ^^^ keyWord key j) % 65536)) % 65536
  ⟨p0, p1, p2, p3, (p4 + UInt32.ofNat i) % 65536⟩

/-- Two octets of the key of the frame. -/
def rc4Pair (v : UInt32) : List UInt8 := [(v % 256).toUInt8, ((v >>> 8) % 256).toUInt8]

/-- `RTMPTkipMixKey`: `rc4key`. -/
def rtmpTkipMixKey (key ta : List UInt8) (pnl pnh : UInt64) : List UInt8 :=
  let tsc0 := ((pnh >>> 16) % 65536).toUInt32
  let tsc1 := (pnh % 65536).toUInt32
  let tsc2 := (pnl % 65536).toUInt32
  let p1k := Cipher.rounds (tkipPhase1 key)
    ⟨tsc1, tsc0, keyWord ta 0, keyWord ta 2, keyWord ta 4⟩ (List.range 8)
  -- phase 2
  let ppk5 := (p1k.p4 + tsc2) % 65536
  let ppk0 := p1k.p0 + tkipSbox ((ppk5 ^^^ keyWord key 0) % 65536)
  let ppk1 := p1k.p1 + tkipSbox ((ppk0 ^^^ keyWord key 2) % 65536)
  let ppk2 := p1k.p2 + tkipSbox ((ppk1 ^^^ keyWord key 4) % 65536)
  let ppk3 := p1k.p3 + tkipSbox ((ppk2 ^^^ keyWord key 6) % 65536)
  let ppk4 := p1k.p4 + tkipSbox ((ppk3 ^^^ keyWord key 8) % 65536)
  let ppk5 := ppk5 + tkipSbox ((ppk4 ^^^ keyWord key 10) % 65536)
  let ppk0 := ppk0 + rotr1 (ppk5 ^^^ keyWord key 12)
  let ppk1 := ppk1 + rotr1 (ppk0 ^^^ keyWord key 14)
  let ppk2 := ppk2 + rotr1 ppk1
  let ppk3 := ppk3 + rotr1 ppk2
  let ppk4 := ppk4 + rotr1 ppk3
  let ppk5 := ppk5 + rotr1 ppk4
  [((tsc2 >>> 8) % 256).toUInt8, ((((tsc2 >>> 8) % 256) ||| 0x20) &&& 0x7f).toUInt8,
      (tsc2 % 256).toUInt8, (((ppk5 ^^^ keyWord key 0) >>> 1) % 256).toUInt8] ++
    rc4Pair ppk0 ++ rc4Pair ppk1 ++ rc4Pair ppk2 ++ rc4Pair ppk3 ++ rc4Pair ppk4 ++ rc4Pair ppk5

/-! ## 3. The receiver -/

section

variable (pHdr : List UInt8)

/-- `from_ds` and `to_ds` -/
def fromDs : Bool := (pHdr.getD 1 0 &&& 0x2) >>> 1 ≠ 0
def toDs : Bool := pHdr.getD 1 0 &&& 0x1 ≠ 0

/-- `DA`, `SA` and `TA`, by the flags of the distribution system. -/
def tkipDa : List UInt8 := if toDs pHdr then Mem.read pHdr 16 6 else Mem.read pHdr 4 6
def tkipSa : List UInt8 :=
  if toDs pHdr && fromDs pHdr then Mem.read pHdr 24 6
  else if fromDs pHdr then Mem.read pHdr 16 6
  else Mem.read pHdr 10 6
def tkipTa : List UInt8 := Mem.read pHdr 10 6

/-- `pnl` and `pnh`, from the IV header. -/
def tkipPnl (pData : List UInt8) : UInt64 :=
  (pData.getD 0 0).toUInt64 <<< 8 ||| (pData.getD 2 0).toUInt64
def tkipPnh (pData : List UInt8) : UInt64 :=
  (leUint (Mem.read pData 4 4)).toUInt64 ||| (leUint (Mem.read pData 8 4)).toUInt64 <<< 32

/-- The memory at `pData` with `len` octets behind the IV header deciphered. -/
def tkipDeciphered (pKey : CipherKey) (pData : List UInt8) (len : Nat) : List UInt8 :=
  (arc4Compute
    (arc4Init (rtmpTkipMixKey pKey.key.toList (tkipTa pHdr) (tkipPnl pData) (tkipPnh pData)))
    pData lenTkipIvHdr len 0).2

/-- The Michael code of `len` octets of deciphered text. -/
def tkipMic (pKey : CipherKey) (userPriority : UInt8) (mem : List UInt8) (len : Nat) : List UInt8 :=
  rtmpTkipGetMic
    (rtmpTkipAppend
      (rtmpInitMicEngine 64 (tkipDa pHdr) (tkipSa pHdr) userPriority pKey.rxMic.toList)
      (Mem.read mem 0 len))

/-- `RTMPSoftDecryptTKIP`: the memory at `pData` and `*DataByteCnt`. -/
def rtmpSoftDecryptTkip (userPriority : UInt8) (pKey : CipherKey) (pData : List UInt8)
    (dataByteCnt : UInt16) : Checked (Option (List UInt8 × UInt16)) := do
  if pKey.keyLen = 0 then return none
  -- frame control and the addresses
  Checked.access pHdr.length 0 2
  Checked.access pHdr.length 4 18
  Checked.access pHdr.length 24 (if toDs pHdr && fromDs pHdr then 6 else 0)
  -- the packet number; `pnh` is an `ULONG`
  Checked.access pData.length 0 3
  Checked.access pData.length 4 8
  let ciphertextLen ← Checked.sub dataByteCnt.toNat lenTkipIvHdr
  Checked.access pData.length lenTkipIvHdr ciphertextLen
  Checked.access pData.length 0 ciphertextLen
  let mem := tkipDeciphered pHdr pKey pData ciphertextLen
  let plaintextLen ← Checked.sub ciphertextLen lenIcv
  Checked.access pData.length plaintextLen lenIcv
  Checked.access pData.length 0 plaintextLen
  if icvMatches mem plaintextLen = false then return none
  let plaintextLen ← Checked.sub plaintextLen Wpa.lenTkipMic
  Checked.access pData.length plaintextLen Wpa.lenTkipMic
  Checked.access pData.length 0 plaintextLen
  if tkipMic pHdr pKey userPriority mem plaintextLen ≠
      Mem.read mem plaintextLen Wpa.lenTkipMic then return none
  return some (mem, UInt16.ofNat plaintextLen)

end

section

variable {pHdr pData : List UInt8} {userPriority : UInt8} {pKey : CipherKey} {n : UInt16}

theorem rtmpSoftDecryptTkip_empty (hkey : pKey.keyLen = 0) :
    rtmpSoftDecryptTkip pHdr userPriority pKey pData n = .ok none := by
  rw [rtmpSoftDecryptTkip, if_pos hkey]
  rfl

/-- The ICV of a frame of `n` octets, once deciphered. -/
def tkipIcv (pHdr : List UInt8) (pKey : CipherKey) (pData : List UInt8) (n : Nat) : Bool :=
  icvMatches (tkipDeciphered pHdr pKey pData (n - 8)) (n - 12)

/-- With room for the header and the ICV the receiver gets as far as the ICV. -/
theorem rtmpSoftDecryptTkip_icv (hkey : pKey.keyLen ≠ 0) (hdata : pData.length = n.toNat)
    (hhdr : 24 + n.toNat ≤ pHdr.length) (hlen : 12 ≤ n.toNat) :
    rtmpSoftDecryptTkip pHdr userPriority pKey pData n =
      if tkipIcv pHdr pKey pData n.toNat = false then .ok none
      else do
        let plaintextLen ← Checked.sub (n.toNat - 12) Wpa.lenTkipMic
        Checked.access pData.length plaintextLen Wpa.lenTkipMic
        Checked.access pData.length 0 plaintextLen
        if tkipMic pHdr pKey userPriority (tkipDeciphered pHdr pKey pData (n.toNat - 8))
            plaintextLen ≠
          Mem.read (tkipDeciphered pHdr pKey pData (n.toNat - 8)) plaintextLen Wpa.lenTkipMic then
          return none
        return some (tkipDeciphered pHdr pKey pData (n.toNat - 8), UInt16.ofNat plaintextLen) := by
  have hplain : n.toNat - 8 - 4 = n.toNat - 12 := by omega
  have haddr4 : 24 + (if toDs pHdr && fromDs pHdr then 6 else 0) ≤ pHdr.length := by
    split <;> omega
  rw [rtmpSoftDecryptTkip, if_neg hkey]
  simp only [lenTkipIvHdr, lenIcv]
  rw [Checked.access_ok (by omega), Checked.ok_bind, Checked.access_ok (by omega),
    Checked.ok_bind, Checked.access_ok haddr4, Checked.ok_bind, Checked.access_ok (by omega),
    Checked.ok_bind, Checked.access_ok (by omega), Checked.ok_bind, Checked.sub_ok (by omega),
    Checked.ok_bind, Checked.access_ok (by omega), Checked.ok_bind,
    Checked.access_ok (by omega), Checked.ok_bind, Checked.sub_ok (by omega), Checked.ok_bind,
    hplain, Checked.access_ok (by omega), Checked.ok_bind, Checked.access_ok (by omega),
    Checked.ok_bind, tkipIcv]
  rfl

/-- **Twenty octets are enough**. -/
theorem rtmpSoftDecryptTkip_safe (hkey : pKey.keyLen ≠ 0) (hdata : pData.length = n.toNat)
    (hhdr : 24 + n.toNat ≤ pHdr.length) (hlen : 20 ≤ n.toNat) :
    Checked.Safe (rtmpSoftDecryptTkip pHdr userPriority pKey pData n) := by
  rw [rtmpSoftDecryptTkip_icv hkey hdata hhdr (by omega)]
  split
  · exact Checked.safe_ok none
  · simp only [Wpa.lenTkipMic]
    rw [Checked.sub_ok (by omega), Checked.ok_bind, Checked.access_ok (by omega),
      Checked.ok_bind, Checked.access_ok (by omega), Checked.ok_bind]
    split
    · exact Checked.safe_ok none
    · exact Checked.safe_ok _

/-- **Fewer, but room for the ICV**: the frame is given up if its ICV is wrong, and the length wraps
if it is right. -/
theorem rtmpSoftDecryptTkip_short (hkey : pKey.keyLen ≠ 0) (hdata : pData.length = n.toNat)
    (hhdr : 24 + n.toNat ≤ pHdr.length) (hlen : 12 ≤ n.toNat) (hshort : n.toNat < 20) :
    rtmpSoftDecryptTkip pHdr userPriority pKey pData n =
      if tkipIcv pHdr pKey pData n.toNat = false then .ok none else .error .underflow := by
  rw [rtmpSoftDecryptTkip_icv hkey hdata hhdr hlen]
  simp only [Wpa.lenTkipMic]
  rw [Checked.sub_error (by omega), Checked.error_bind]

/-- **No room for the ICV**. -/
theorem rtmpSoftDecryptTkip_not_safe (hkey : pKey.keyLen ≠ 0) (hlen : n.toNat < 12) :
    ¬ Checked.Safe (rtmpSoftDecryptTkip pHdr userPriority pKey pData n) := by
  rintro ⟨r, hr⟩
  rw [rtmpSoftDecryptTkip, if_neg hkey] at hr
  simp only [Checked.access_bind_eq_ok, Checked.sub_bind_eq_ok, lenTkipIvHdr, lenIcv] at hr
  omega

end

end Mt7601.Crypt
