/-
# MD5

MD5 as RFC 1321 writes it: sixty-four operations `[abcd k s i]` on a block of sixteen words with the
least significant octet first. Nothing here is made to be fast; it is what an implementation is held
against.
-/
import Mt7601.Lib.Fips180

namespace Rfc1321

/-! ## 1. Words -/

/-- A number as `n` octets, the least significant first. -/
def leOctets (n v : Nat) : List UInt8 := (Fips180.beOctets n v).reverse

/-- Word `j` of a block: four octets, the least significant first. -/
def wordAt (block : List UInt8) (j : Nat) : UInt32 :=
  UInt32.ofNat (beVal (Mem.read block (4 * j) 4).reverse)

def F (x y z : UInt32) : UInt32 := (x &&& y) ||| (~~~x &&& z)
def G (x y z : UInt32) : UInt32 := (x &&& z) ||| (y &&& ~~~z)
def H (x y z : UInt32) : UInt32 := x ^^^ y ^^^ z
def I (x y z : UInt32) : UInt32 := y ^^^ (x ||| ~~~z)

/-! ## 2. The operations -/

/-- `T[i + 1]`: the integer part of `4294967296` times `abs(sin(i + 1))`. -/
def t (i : Nat) : UInt32 :=
  [0xd76aa478, 0xe8c7b756, 0x242070db, 0xc1bdceee, 0xf57c0faf, 0x4787c62a, 0xa8304613, 0xfd469501,
    0x698098d8, 0x8b44f7af, 0xffff5bb1, 0x895cd7be, 0x6b901122, 0xfd987193, 0xa679438e, 0x49b40821,
    0xf61e2562, 0xc040b340, 0x265e5a51, 0xe9b6c7aa, 0xd62f105d, 0x02441453, 0xd8a1e681, 0xe7d3fbc8,
    0x21e1cde6, 0xc33707d6, 0xf4d50d87, 0x455a14ed, 0xa9e3e905, 0xfcefa3f8, 0x676f02d9, 0x8d2a4c8a,
    0xfffa3942, 0x8771f681, 0x6d9d6122, 0xfde5380c, 0xa4beea44, 0x4bdecfa9, 0xf6bb4b60, 0xbebfbc70,
    0x289b7ec6, 0xeaa127fa, 0xd4ef3085, 0x04881d05, 0xd9d4d039, 0xe6db99e5, 0x1fa27cf8, 0xc4ac5665,
    0xf4292244, 0x432aff97, 0xab9423a7, 0xfc93a039, 0x655b59c3, 0x8f0ccc92, 0xffeff47d, 0x85845dd1,
    0x6fa87e4f, 0xfe2ce6e0, 0xa3014314, 0x4e0811a1, 0xf7537e82, 0xbd3af235, 0x2ad7d2bb,
    0xeb86d391].getD i 0

/-- The function of operation `i`. -/
def f (i : Nat) : UInt32 → UInt32 → UInt32 → UInt32 :=
  if i < 16 then F else if i < 32 then G else if i < 48 then H else I

/-- The word of the block operation `i` takes. -/
def k (i : Nat) : Nat :=
  if i < 16 then i else if i < 32 then (5 * i + 1) % 16 else if i < 48 then (3 * i + 5) % 16
  else 7 * i % 16

/-- How far operation `i` rotates. -/
def shift (i : Nat) : UInt32 :=
  (if i < 16 then [7, 12, 17, 22] else if i < 32 then [5, 9, 14, 20]
  else if i < 48 then [4, 11, 16, 23] else [6, 10, 15, 21]).getD (i % 4) 0

/-- Four words: a hash value, or the working variables. -/
structure Words where
  a : UInt32
  b : UInt32
  c : UInt32
  d : UInt32
  deriving DecidableEq

def initial : Words := ⟨0x67452301, 0xefcdab89, 0x98badcfe, 0x10325476⟩

/-- Operation `i`: `a = b + ((a + f(b, c, d) + X[k] + T[i]) <<< s)`. The next one has `d` for its
`a`. -/
def operation (block : List UInt8) (v : Words) (i : Nat) : Words :=
  let a := v.b + Fips180.rotl (v.a + f i v.b v.c v.d + wordAt block (k i) + t i) (shift i)
  ⟨v.d, a, v.b, v.c⟩

/-! ## 3. The hash -/

/-- The hash value behind a block. -/
def compress (h : Words) (block : List UInt8) : Words :=
  let v := (List.range 64).foldl (operation block) h
  ⟨h.a + v.a, h.b + v.b, h.c + v.c, h.d + v.d⟩

def digest (h : Words) : List UInt8 :=
  leOctets 4 h.a.toNat ++ leOctets 4 h.b.toNat ++ leOctets 4 h.c.toNat ++ leOctets 4 h.d.toNat

@[simp] theorem length_leOctets (n v : Nat) : (leOctets n v).length = n := by
  rw [leOctets, List.length_reverse, Fips180.length_beOctets]

theorem length_digest (h : Words) : (digest h).length = 16 := by
  simp [digest]

def blocks : BlockHash Words where
  initial := initial
  compress := compress
  lengthOctets := leOctets 8
  digest := digest
  length_lengthOctets := length_leOctets 8

/-- **MD5.** -/
def md5 (message : List UInt8) : List UInt8 := blocks.hash message

end Rfc1321
