/-
# SHA-1, HMAC and what is derived with them

SHA-1 as FIPS 180 writes it, HMAC over any hash function, the key derivation PBKDF2 over any
pseudo-random function and the pseudo-random function of IEEE 802.11i over any keyed hash. Nothing
here is made to be fast; it is what an implementation is held against.

An implementation takes a message piece by piece; the rules for that are those of the construction
(`sha1Blocks`).
-/
import Mt7601.Lib.BlockHash

namespace Fips180

/-! ## 1. Words -/

/-- A number as `n` octets, the most significant first. -/
def beOctets (n v : Nat) : List UInt8 :=
  (List.range n).map fun i => UInt8.ofNat (v / 256 ^ (n - 1 - i))

theorem beOctets_append (n m v : Nat) :
    beOctets (n + m) v = beOctets n (v / 256 ^ m) ++ beOctets m v := by
  rw [beOctets, List.range_add, List.map_append, List.map_map]
  congr 1
  · refine List.map_congr_left fun i hi => ?_
    have hplace : n + m - 1 - i = m + (n - 1 - i) := by
      have := List.mem_range.mp hi
      omega
    rw [hplace, Nat.pow_add, Nat.div_div_eq_div_mul]
  · refine List.map_congr_left fun i _ => ?_
    have hplace : n + m - 1 - (n + i) = m - 1 - i := by omega
    rw [Function.comp_apply, hplace]

/-- Only what the octets hold counts. -/
theorem beOctets_mod (n v : Nat) : beOctets n (v % 256 ^ n) = beOctets n v := by
  refine List.map_congr_left fun i hi => ?_
  have hplace : n = n - 1 - i + (i + 1) := by
    have := List.mem_range.mp hi
    omega
  refine UInt8.toNat_inj.mp ?_
  rw [UInt8.toNat_ofNat', UInt8.toNat_ofNat']
  nth_rewrite 1 [hplace]
  rw [Nat.pow_add, Nat.mod_mul_right_div_self]
  exact Nat.mod_mod_of_dvd _ (dvd_pow_self 256 i.succ_ne_zero)
/-- Word `t` of a block: four octets, the most significant first. -/
def wordAt (block : List UInt8) (t : Nat) : UInt32 :=
  UInt32.ofNat (beVal (Mem.read block (4 * t) 4))

/-- `ROTLⁿ(x)` -/
def rotl (x n : UInt32) : UInt32 := (x <<< n) ||| (x >>> (32 - n))

/-- The function of round `t`: `Ch`, `Parity`, `Maj` and `Parity`. -/
def f (t : Nat) (x y z : UInt32) : UInt32 :=
  if t < 20 then (x &&& y) ^^^ (~~~x &&& z)
  else if t < 40 then x ^^^ y ^^^ z
  else if t < 60 then (x &&& y) ^^^ (x &&& z) ^^^ (y &&& z)
  else x ^^^ y ^^^ z

/-- The constant of round `t`. -/
def k (t : Nat) : UInt32 :=
  if t < 20 then 0x5a827999 else if t < 40 then 0x6ed9eba1 else if t < 60 then 0x8f1bbcdc
  else 0xca62c1d6

/-! ## 2. The hash -/

/-- Five words: a hash value, or the working variables. -/
structure Words where
  a : UInt32
  b : UInt32
  c : UInt32
  d : UInt32
  e : UInt32
  deriving DecidableEq

/-- `H⁽⁰⁾` -/
def initial : Words := ⟨0x67452301, 0xefcdab89, 0x98badcfe, 0x10325476, 0xc3d2e1f0⟩

/-- The message schedule of a block. -/
def schedule (block : List UInt8) (t : Nat) : UInt32 :=
  if t < 16 then wordAt block t
  else
    rotl (schedule block (t - 3) ^^^ schedule block (t - 8) ^^^ schedule block (t - 14) ^^^
      schedule block (t - 16)) 1

/-- Round `t`. -/
def round (w : Nat → UInt32) (v : Words) (t : Nat) : Words :=
  ⟨rotl v.a 5 + f t v.b v.c v.d + v.e + k t + w t, v.a, rotl v.b 30, v.c, v.d⟩

/-- The hash value behind a block. -/
def compress (h : Words) (block : List UInt8) : Words :=
  let v := (List.range 80).foldl (round (schedule block)) h
  ⟨h.a + v.a, h.b + v.b, h.c + v.c, h.d + v.d, h.e + v.e⟩

/-- The blocks of a message: as many as are whole. -/
def block (message : List UInt8) (i : Nat) : List UInt8 := Mem.read message (64 * i) 64

/-- The hash value behind the whole blocks of a message. -/
def absorb (message : List UInt8) : Words :=
  (List.range (message.length / 64)).foldl (fun h i => compress h (block message i)) initial

/-- The zeros of the padding: with the bit `1` and the length the last block is whole. -/
def zeros (n : Nat) : Nat := (119 - n % 64) % 64

def pad (message : List UInt8) : List UInt8 :=
  message ++ 0x80 :: List.replicate (zeros message.length) 0 ++ beOctets 8 (8 * message.length)

def digest (h : Words) : List UInt8 :=
  beOctets 4 h.a.toNat ++ beOctets 4 h.b.toNat ++ beOctets 4 h.c.toNat ++ beOctets 4 h.d.toNat ++
    beOctets 4 h.e.toNat

/-- **SHA-1.** -/
def sha1 (message : List UInt8) : List UInt8 := digest (absorb (pad message))

/-! ## 3. HMAC and derivation -/

/-- The smaller of two octet strings, octet by octet, and the larger. -/
def octetMin (a b : List UInt8) : List UInt8 := if b < a then b else a
def octetMax (a b : List UInt8) : List UInt8 := if b < a then a else b

/-- **HMAC** over a hash function with blocks of `b` octets. -/
def hmac (hash : List UInt8 → List UInt8) (b : Nat) (key text : List UInt8) : List UInt8 :=
  let k0 := (if key.length ≤ b then key else hash key).takeD b 0
  hash (k0.map (· ^^^ 0x5c) ++ hash (k0.map (· ^^^ 0x36) ++ text))

/-- **HMAC-SHA-1.** -/
def hmacSha1 : List UInt8 → List UInt8 → List UInt8 := hmac sha1 64

/-- `U₁`, `U₂`, … of a block of PBKDF2: the first is of the salt with the number of the block. -/
def pbkdf2U (prf : List UInt8 → List UInt8 → List UInt8) (password salt : List UInt8) (i : Nat) :
    Nat → List UInt8
  | 0 => prf password (salt ++ beOctets 4 i)
  | j + 1 => prf password (pbkdf2U prf password salt i j)

/-- `T_i = U₁ ⊕ U₂ ⊕ … ⊕ U_c` -/
def pbkdf2T (prf : List UInt8 → List UInt8 → List UInt8) (password salt : List UInt8) (c i : Nat) :
    List UInt8 :=
  (List.range (c - 1)).foldl
    (fun t j => List.zipWith (· ^^^ ·) t (pbkdf2U prf password salt i (j + 1)))
    (pbkdf2U prf password salt i 0)

/-- **PBKDF2** with a pseudo-random function of `hLen` octets: `dkLen` octets of `T₁ ‖ T₂ ‖ …`. -/
def pbkdf2 (prf : List UInt8 → List UInt8 → List UInt8) (hLen : Nat) (password salt : List UInt8)
    (c dkLen : Nat) : List UInt8 :=
  ((List.range ((dkLen + hLen - 1) / hLen)).flatMap fun i =>
    pbkdf2T prf password salt c (i + 1)).take dkLen

/-- **The pseudo-random function of IEEE 802.11i**: `len` octets of `H(A ‖ 0 ‖ B ‖ 0) ‖
H(A ‖ 0 ‖ B ‖ 1) ‖ …`, where the counter is an octet and `H` has `hLen` octets. -/
def prf80211 (mac : List UInt8 → List UInt8 → List UInt8) (hLen : Nat) (key a b : List UInt8)
    (len : Nat) : List UInt8 :=
  ((List.range (len / hLen + 1)).flatMap fun i =>
    mac key (a ++ 0 :: b ++ [UInt8.ofNat i])).take len

/-- Octets of blocks of one size, and there are enough blocks. -/
theorem take_flatMap_range {g : Nat → List UInt8} {size m n len : Nat}
    (hg : ∀ i, (g i).length = size) (hlen : len ≤ m * size) (hmn : m ≤ n) :
    ((List.range n).flatMap g).take len = ((List.range m).flatMap g).take len := by
  have hlength : ((List.range m).flatMap g).length = m * size := by
    rw [List.length_flatMap, List.map_congr_left fun i _ => hg i]
    simp
  obtain ⟨d, rfl⟩ := Nat.exists_eq_add_of_le hmn
  rw [List.range_add, List.flatMap_append, List.take_append_of_le_length (by omega)]

/-! ## 4. Lengths, and the construction -/

@[simp] theorem length_beOctets (n v : Nat) : (beOctets n v).length = n := by
  rw [beOctets, List.length_map, List.length_range]

theorem length_digest (h : Words) : (digest h).length = 20 := by
  simp [digest]

/-- SHA-1 is a compression function folded over blocks. -/
def sha1Blocks : BlockHash Words where
  initial := initial
  compress := compress
  lengthOctets := beOctets 8
  digest := digest
  length_lengthOctets := length_beOctets 8

theorem sha1_eq (message : List UInt8) : sha1 message = sha1Blocks.hash message := rfl

@[simp] theorem length_sha1 (message : List UInt8) : (sha1 message).length = 20 := length_digest _

@[simp] theorem length_hmacSha1 (key text : List UInt8) : (hmacSha1 key text).length = 20 :=
  length_sha1 _

end Fips180
