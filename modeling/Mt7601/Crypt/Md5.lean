/-
# MD5 and HMAC-MD5

`common/crypt_md5.c` and `RT_HMAC_MD5` of `common/crypt_hmac.c`, built like SHA-1 and its code, with
words that have their least significant octet first.
-/
import Mt7601.Crypt.Sha1

namespace Mt7601.Crypt

/-- The basic functions `F`, `G`, `H` and `I`. -/
def md5F (x y z : UInt32) : UInt32 := (x &&& y) ||| (~~~x &&& z)
def md5G (x y z : UInt32) : UInt32 := (x &&& z) ||| (y &&& ~~~z)
def md5H (x y z : UInt32) : UInt32 := x ^^^ y ^^^ z
def md5I (x y z : UInt32) : UInt32 := y ^^^ (x ||| ~~~z)

/-- `MD5_BLOCK_SIZE`, `MD5_DIGEST_SIZE` -/
abbrev md5BlockSize : Nat := 64
abbrev md5DigestSize : Nat := 16

/-- The four words of `HashValue`, and of the working variables `a` to `d`. -/
structure Md5Words where
  a : UInt32
  b : UInt32
  c : UInt32
  d : UInt32
  deriving DecidableEq

/-- `MD5_DefaultHashValue` -/
def md5DefaultHashValue : Md5Words := ⟨0x67452301, 0xefcdab89, 0x98badcfe, 0x10325476⟩

/-- `MD5_CTX_STRUC`; `block` is what the block holds so far, `BlockLen` its length. -/
structure Md5Ctx where
  hashValue : Md5Words := md5DefaultHashValue
  messageLen : UInt64 := 0
  block : List UInt8 := []
  deriving DecidableEq

def leWordsOf : List UInt8 → List UInt32
  | b₀ :: b₁ :: b₂ :: b₃ :: rest => wordOf b₃ b₂ b₁ b₀ :: leWordsOf rest
  | _ => []

def leOctetsOf (w : UInt32) : List UInt8 := (octetsOf w).reverse

/-- The operations of the four rounds: the word of the block, the rotation, and the constant. -/
def md5Round1 : List (Nat × UInt32 × UInt32) :=
  [(0, 7, 0xd76aa478), (1, 12, 0xe8c7b756), (2, 17, 0x242070db), (3, 22, 0xc1bdceee),
    (4, 7, 0xf57c0faf), (5, 12, 0x4787c62a), (6, 17, 0xa8304613), (7, 22, 0xfd469501),
    (8, 7, 0x698098d8), (9, 12, 0x8b44f7af), (10, 17, 0xffff5bb1), (11, 22, 0x895cd7be),
    (12, 7, 0x6b901122), (13, 12, 0xfd987193), (14, 17, 0xa679438e), (15, 22, 0x49b40821)]

def md5Round2 : List (Nat × UInt32 × UInt32) :=
  [(1, 5, 0xf61e2562), (6, 9, 0xc040b340), (11, 14, 0x265e5a51), (0, 20, 0xe9b6c7aa),
    (5, 5, 0xd62f105d), (10, 9, 0x2441453), (15, 14, 0xd8a1e681), (4, 20, 0xe7d3fbc8),
    (9, 5, 0x21e1cde6), (14, 9, 0xc33707d6), (3, 14, 0xf4d50d87), (8, 20, 0x455a14ed),
    (13, 5, 0xa9e3e905), (2, 9, 0xfcefa3f8), (7, 14, 0x676f02d9), (12, 20, 0x8d2a4c8a)]

def md5Round3 : List (Nat × UInt32 × UInt32) :=
  [(5, 4, 0xfffa3942), (8, 11, 0x8771f681), (11, 16, 0x6d9d6122), (14, 23, 0xfde5380c),
    (1, 4, 0xa4beea44), (4, 11, 0x4bdecfa9), (7, 16, 0xf6bb4b60), (10, 23, 0xbebfbc70),
    (13, 4, 0x289b7ec6), (0, 11, 0xeaa127fa), (3, 16, 0xd4ef3085), (6, 23, 0x4881d05),
    (9, 4, 0xd9d4d039), (12, 11, 0xe6db99e5), (15, 16, 0x1fa27cf8), (2, 23, 0xc4ac5665)]

def md5Round4 : List (Nat × UInt32 × UInt32) :=
  [(0, 6, 0xf4292244), (7, 10, 0x432aff97), (14, 15, 0xab9423a7), (5, 21, 0xfc93a039),
    (12, 6, 0x655b59c3), (3, 10, 0x8f0ccc92), (10, 15, 0xffeff47d), (1, 21, 0x85845dd1),
    (8, 6, 0x6fa87e4f), (15, 10, 0xfe2ce6e0), (6, 15, 0xa3014314), (13, 21, 0x4e0811a1),
    (4, 6, 0xf7537e82), (11, 10, 0xbd3af235), (2, 15, 0x2ad7d2bb), (9, 21, 0xeb86d391)]

/-- `ROUND1` to `ROUND4`. The operation after it names the variables in the order `d`, `a`, `b`,
`c`, which is the order they are left in. -/
def md5Operation (f : UInt32 → UInt32 → UInt32 → UInt32) (x : List UInt32) (v : Md5Words)
    (op : Nat × UInt32 × UInt32) : Md5Words :=
  let a := rotl32 (v.a + (f v.b v.c v.d + x.getD op.1 0 + op.2.2)) op.2.1 + v.b
  ⟨v.d, a, v.b, v.c⟩

/-- `RT_MD5_Hash`, on a block that is filled with zeros to its size. -/
def rtMd5Hash (ctx : Md5Ctx) : Md5Ctx :=
  let x := leWordsOf (ctx.block.takeD md5BlockSize 0)
  let h := ctx.hashValue
  let v := md5Round1.foldl (md5Operation md5F x) h
  let v := md5Round2.foldl (md5Operation md5G x) v
  let v := md5Round3.foldl (md5Operation md5H x) v
  let v := md5Round4.foldl (md5Operation md5I x) v
  { ctx with hashValue := ⟨h.a + v.a, h.b + v.b, h.c + v.c, h.d + v.d⟩, block := [] }

/-- The loop of `RT_MD5_Append`: each pass takes an octet at least, so there are no more passes
than octets. -/
def rtMd5AppendLoop : Nat → Md5Ctx → List UInt8 → Md5Ctx
  | 0, ctx, _ => ctx
  | passes + 1, ctx, message =>
    if message.length = 0 then ctx
    else if ctx.block.length + message.length < md5BlockSize then
      { ctx with block := ctx.block ++ message }
    else
      let room := md5BlockSize - ctx.block.length
      rtMd5AppendLoop passes (rtMd5Hash { ctx with block := ctx.block ++ message.take room })
        (message.drop room)

/-- `RT_MD5_Append` -/
def rtMd5Append (ctx : Md5Ctx) (message : List UInt8) : Md5Ctx :=
  let ctx' := rtMd5AppendLoop message.length ctx message
  { ctx' with messageLen := ctx'.messageLen + UInt64.ofNat message.length }

/-- `RT_MD5_End`: the bit 1, and the number of bits in the last eight octets of a block. -/
def rtMd5End (ctx : Md5Ctx) : Octets md5DigestSize :=
  let bits := ctx.messageLen * 8
  let blockLen := ctx.block.length
  let ctx := { ctx with block := ctx.block ++ [0x80] }
  let ctx := if 55 < blockLen then rtMd5Hash ctx else ctx
  let block :=
    ctx.block.takeD 56 0 ++ leOctetsOf bits.toUInt32 ++ leOctetsOf (bits >>> 32).toUInt32
  let h := (rtMd5Hash { ctx with block }).hashValue
  .ofList md5DigestSize (leOctetsOf h.a ++ leOctetsOf h.b ++ leOctetsOf h.c ++ leOctetsOf h.d)

/-- `RT_MD5` -/
def rtMd5 (message : List UInt8) : Octets md5DigestSize :=
  rtMd5End (rtMd5Append {} message)

/-- `RT_HMAC_MD5`, for the whole digest. -/
def rtHmacMd5 (key message : List UInt8) : Octets md5DigestSize :=
  let k0 := (if key.length ≤ md5BlockSize then key else (rtMd5 key).toList).takeD md5BlockSize 0
  let digest := rtMd5End (rtMd5Append (rtMd5Append {} (k0.map (· ^^^ 0x36))) message)
  rtMd5End (rtMd5Append (rtMd5Append {} (k0.map (· ^^^ 0x5c))) digest.toList)

/-- "abc" -/
example : (rtMd5 [0x61, 0x62, 0x63]).toList =
    [0x90, 0x01, 0x50, 0x98, 0x3c, 0xd2, 0x4f, 0xb0, 0xd6, 0x96, 0x3f, 0x7d, 0x28, 0xe1, 0x7f,
      0x72] := by decide +kernel

end Mt7601.Crypt
