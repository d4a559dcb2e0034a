/-
# SHA-256

SHA-256 as FIPS 180 writes it, on the words of SHA-1. The constants are listed.
-/
import Mt7601.Lib.Fips180

namespace Fips180.Sha256

/-! ## 1. Functions and constants -/

/-- `ROTRⁿ(x)` -/
def rotr (x n : UInt32) : UInt32 := (x >>> n) ||| (x <<< (32 - n))

def Ch (x y z : UInt32) : UInt32 := (x &&& y) ^^^ (~~~x &&& z)
def Maj (x y z : UInt32) : UInt32 := (x &&& y) ^^^ (x &&& z) ^^^ (y &&& z)

/-- `Σ₀`, `Σ₁`, and `σ₀`, `σ₁`. -/
def bigSigma₀ (x : UInt32) : UInt32 := rotr x 2 ^^^ rotr x 13 ^^^ rotr x 22
def bigSigma₁ (x : UInt32) : UInt32 := rotr x 6 ^^^ rotr x 11 ^^^ rotr x 25
def smallSigma₀ (x : UInt32) : UInt32 := rotr x 7 ^^^ rotr x 18 ^^^ x >>> 3
def smallSigma₁ (x : UInt32) : UInt32 := rotr x 17 ^^^ rotr x 19 ^^^ x >>> 10

/-- The constants, in their order. -/
def constants : List UInt32 :=
  [0x428a2f98, 0x71374491, 0xb5c0fbcf, 0xe9b5dba5, 0x3956c25b, 0x59f111f1, 0x923f82a4, 0xab1c5ed5,
    0xd807aa98, 0x12835b01, 0x243185be, 0x550c7dc3, 0x72be5d74, 0x80deb1fe, 0x9bdc06a7, 0xc19bf174,
    0xe49b69c1, 0xefbe4786, 0x0fc19dc6, 0x240ca1cc, 0x2de92c6f, 0x4a7484aa, 0x5cb0a9dc, 0x76f988da,
    0x983e5152, 0xa831c66d, 0xb00327c8, 0xbf597fc7, 0xc6e00bf3, 0xd5a79147, 0x06ca6351, 0x14292967,
    0x27b70a85, 0x2e1b2138, 0x4d2c6dfc, 0x53380d13, 0x650a7354, 0x766a0abb, 0x81c2c92e, 0x92722c85,
    0xa2bfe8a1, 0xa81a664b, 0xc24b8b70, 0xc76c51a3, 0xd192e819, 0xd6990624, 0xf40e3585, 0x106aa070,
    0x19a4c116, 0x1e376c08, 0x2748774c, 0x34b0bcb5, 0x391c0cb3, 0x4ed8aa4a, 0x5b9cca4f, 0x682e6ff3,
    0x748f82ee, 0x78a5636f, 0x84c87814, 0x8cc70208, 0x90befffa, 0xa4506ceb, 0xbef9a3f7, 0xc67178f2]

def k (t : Nat) : UInt32 := constants.getD t 0

/-- Eight words: a hash value, or the working variables. -/
structure Words where
  a : UInt32
  b : UInt32
  c : UInt32
  d : UInt32
  e : UInt32
  f : UInt32
  g : UInt32
  h : UInt32

/-- `H⁽⁰⁾` -/
def initial : Words :=
  ⟨0x6a09e667, 0xbb67ae85, 0x3c6ef372, 0xa54ff53a, 0x510e527f, 0x9b05688c, 0x1f83d9ab, 0x5be0cd19⟩

/-! ## 2. The hash -/

/-- The message schedule of a block. -/
def schedule (block : List UInt8) (t : Nat) : UInt32 :=
  if t < 16 then wordAt block t
  else
    smallSigma₁ (schedule block (t - 2)) + schedule block (t - 7) +
      smallSigma₀ (schedule block (t - 15)) + schedule block (t - 16)

/-- Round `t`. -/
def round (w : Nat → UInt32) (v : Words) (t : Nat) : Words :=
  let t₁ := v.h + bigSigma₁ v.e + Ch v.e v.f v.g + k t + w t
  let t₂ := bigSigma₀ v.a + Maj v.a v.b v.c
  ⟨t₁ + t₂, v.a, v.b, v.c, v.d + t₁, v.e, v.f, v.g⟩

/-- The hash value behind a block. -/
def compress (h : Words) (block : List UInt8) : Words :=
  let v := (List.range 64).foldl (round (schedule block)) h
  ⟨h.a + v.a, h.b + v.b, h.c + v.c, h.d + v.d, h.e + v.e, h.f + v.f, h.g + v.g, h.h + v.h⟩

def digest (h : Words) : List UInt8 :=
  beOctets 4 h.a.toNat ++ beOctets 4 h.b.toNat ++ beOctets 4 h.c.toNat ++ beOctets 4 h.d.toNat ++
    beOctets 4 h.e.toNat ++ beOctets 4 h.f.toNat ++ beOctets 4 h.g.toNat ++ beOctets 4 h.h.toNat

theorem length_digest (h : Words) : (digest h).length = 32 := by
  simp [digest]

def blocks : BlockHash Words where
  initial := initial
  compress := compress
  lengthOctets := beOctets 8
  digest := digest
  length_lengthOctets := sha1Blocks.length_lengthOctets

/-- **SHA-256.** -/
def sha256 (message : List UInt8) : List UInt8 := blocks.hash message

end Fips180.Sha256
