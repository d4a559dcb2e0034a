/-
# SHA-1 and HMAC-SHA1

`common/crypt_sha2.c` (the SHA-1 part) and `RT_HMAC_SHA1` of `common/crypt_hmac.c`: a context that
takes a message piece by piece, a block of 64 octets at a time.
-/
import Mt7601.Lib.Octets

namespace Mt7601.Crypt

/-- `ROTL32` -/
def rotl32 (x : UInt32) (n : UInt32) : UInt32 := (x <<< n) ||| (x >>> (32 - n))

def ch (x y z : UInt32) : UInt32 := (x &&& y) ^^^ (~~~x &&& z)
def maj (x y z : UInt32) : UInt32 := (x &&& y) ^^^ (x &&& z) ^^^ (y &&& z)
def parity (x y z : UInt32) : UInt32 := x ^^^ y ^^^ z

/-- `SHA1_BLOCK_SIZE`, `SHA1_DIGEST_SIZE` -/
abbrev sha1BlockSize : Nat := 64
abbrev sha1DigestSize : Nat := 20

/-- The five words of `HashValue`, and of the working variables `a` to `e`. -/
structure Sha1Words where
  a : UInt32
  b : UInt32
  c : UInt32
  d : UInt32
  e : UInt32
  deriving DecidableEq

/-- `SHA1_DefaultHashValue` -/
def sha1DefaultHashValue : Sha1Words :=
  ⟨0x67452301, 0xefcdab89, 0x98badcfe, 0x10325476, 0xc3d2e1f0⟩

/-- `SHA1_CTX_STRUC`; `block` is what the block holds so far, `BlockLen` its length. -/
structure Sha1Ctx where
  hashValue : Sha1Words := sha1DefaultHashValue
  messageLen : UInt64 := 0
  block : List UInt8 := []
  deriving DecidableEq

/-- Four octets as a word, most significant first. -/
def wordOf (b₀ b₁ b₂ b₃ : UInt8) : UInt32 :=
  b₀.toUInt32 <<< 24 ||| b₁.toUInt32 <<< 16 ||| b₂.toUInt32 <<< 8 ||| b₃.toUInt32

def wordsOf : List UInt8 → List UInt32
  | b₀ :: b₁ :: b₂ :: b₃ :: rest => wordOf b₀ b₁ b₂ b₃ :: wordsOf rest
  | _ => []

def octetsOf (w : UInt32) : List UInt8 :=
  [(w >>> 24).toUInt8, (w >>> 16).toUInt8, (w >>> 8).toUInt8, w.toUInt8]

/-- The message schedule from its sixteenth word on; the list is the words so far, last first. -/
def scheduleWord (w : List UInt32) : List UInt32 :=
  rotl32 (w.getD 2 0 ^^^ w.getD 7 0 ^^^ w.getD 13 0 ^^^ w.getD 15 0) 1 :: w

/-- The schedule `W` of a block. -/
def schedule (block : List UInt8) : List UInt32 :=
  ((List.range 64).foldl (fun w _ => scheduleWord w) (wordsOf block).reverse).reverse

/-- The function and the constant of round `t`. -/
def roundFunction (t : Nat) (b c d : UInt32) : UInt32 × UInt32 :=
  if t < 20 then (ch b c d, 0x5a827999)
  else if t < 40 then (parity b c d, 0x6ed9eba1)
  else if t < 60 then (maj b c d, 0x8f1bbcdc)
  else (parity b c d, 0xca62c1d6)

def sha1Round (v : Sha1Words) (tw : UInt32 × Nat) : Sha1Words :=
  let fk := roundFunction tw.2 v.b v.c v.d
  ⟨rotl32 v.a 5 + fk.1 + v.e + fk.2 + tw.1, v.a, rotl32 v.b 30, v.c, v.d⟩

/-- `RT_SHA1_Hash`, on a block that is filled with zeros to its size. -/
def rtSha1Hash (ctx : Sha1Ctx) : Sha1Ctx :=
  let h := ctx.hashValue
  let v := (schedule (ctx.block.takeD sha1BlockSize 0)).zipIdx.foldl sha1Round h
  { ctx with hashValue := ⟨h.a + v.a, h.b + v.b, h.c + v.c, h.d + v.d, h.e + v.e⟩, block := [] }

/-- The loop of `RT_SHA1_Append`: each pass takes an octet at least, so there are no more passes
than octets. -/
def rtSha1AppendLoop : Nat → Sha1Ctx → List UInt8 → Sha1Ctx
  | 0, ctx, _ => ctx
  | passes + 1, ctx, message =>
    if message.length = 0 then ctx
    else if ctx.block.length + message.length < sha1BlockSize then
      { ctx with block := ctx.block ++ message }
    else
      let room := sha1BlockSize - ctx.block.length
      rtSha1AppendLoop passes (rtSha1Hash { ctx with block := ctx.block ++ message.take room })
        (message.drop room)

/-- `RT_SHA1_Append` -/
def rtSha1Append (ctx : Sha1Ctx) (message : List UInt8) : Sha1Ctx :=
  let ctx' := rtSha1AppendLoop message.length ctx message
  { ctx' with messageLen := ctx'.messageLen + UInt64.ofNat message.length }

/-- `RT_SHA1_End`: the bit 1, and the number of bits in the last eight octets of a block. -/
def rtSha1End (ctx : Sha1Ctx) : Octets sha1DigestSize :=
  let bits := ctx.messageLen * 8
  let ctx := { ctx with block := ctx.block ++ [0x80] }
  let ctx := if 56 < ctx.block.length then rtSha1Hash ctx else ctx
  let block :=
    ctx.block.takeD 56 0 ++ octetsOf (bits >>> 32).toUInt32 ++ octetsOf bits.toUInt32
  let h := (rtSha1Hash { ctx with block }).hashValue
  .ofList sha1DigestSize
    (octetsOf h.a ++ octetsOf h.b ++ octetsOf h.c ++ octetsOf h.d ++ octetsOf h.e)

/-- `RT_SHA1` -/
def rtSha1 (message : List UInt8) : Octets sha1DigestSize :=
  rtSha1End (rtSha1Append {} message)

/-- `RT_HMAC_SHA1`, for the whole digest. -/
def rtHmacSha1 (key message : List UInt8) : Octets sha1DigestSize :=
  let k0 := (if key.length ≤ sha1BlockSize then key else (rtSha1 key).toList).takeD sha1BlockSize 0
  let digest := rtSha1End (rtSha1Append (rtSha1Append {} (k0.map (· ^^^ 0x36))) message)
  rtSha1End (rtSha1Append (rtSha1Append {} (k0.map (· ^^^ 0x5c))) digest.toList)

/-- "abc" -/
example : (rtSha1 [0x61, 0x62, 0x63]).toList =
    [0xa9, 0x99, 0x3e, 0x36, 0x47, 0x06, 0x81, 0x6a, 0xba, 0x3e, 0x25, 0x71, 0x78, 0x50, 0xc2, 0x6c,
      0x9c, 0xd0, 0xd8, 0x9d] := by decide +kernel

end Mt7601.Crypt
