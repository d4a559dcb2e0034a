/-
# SHA-256 of the driver

The SHA-256 part of `common/crypt_sha2.c`, and its block function against FIPS 180. The code extends
the schedule in the loop over the rounds, in an array that begins with the words of the block; in the
standard the schedule is a function of the round. What is around it is as for SHA-1.
-/
import Mt7601.Crypt.Sha1Spec
import Mt7601.Lib.Sha256

namespace Mt7601.Crypt

open Fips180 (beOctets wordAt)

/-! ## 1. The code -/

/-- `ROTR32` -/
def rotr32 (x : UInt32) (n : UInt32) : UInt32 := (x >>> n) ||| (x <<< (32 - n))

/-- `Zsigma_256_0`, `Zsigma_256_1`, `Sigma_256_0`, `Sigma_256_1` -/
def zsigma256₀ (x : UInt32) : UInt32 := rotr32 x 2 ^^^ rotr32 x 13 ^^^ rotr32 x 22
def zsigma256₁ (x : UInt32) : UInt32 := rotr32 x 6 ^^^ rotr32 x 11 ^^^ rotr32 x 25
def sigma256₀ (x : UInt32) : UInt32 := rotr32 x 7 ^^^ rotr32 x 18 ^^^ x >>> 3
def sigma256₁ (x : UInt32) : UInt32 := rotr32 x 17 ^^^ rotr32 x 19 ^^^ x >>> 10

/-- `SHA256_K` -/
def sha256K : List UInt32 :=
  [0x428a2f98, 0x71374491, 0xb5c0fbcf, 0xe9b5dba5,
    0x3956c25b, 0x59f111f1, 0x923f82a4, 0xab1c5ed5,
    0xd807aa98, 0x12835b01, 0x243185be, 0x550c7dc3,
    0x72be5d74, 0x80deb1fe, 0x9bdc06a7, 0xc19bf174,
    0xe49b69c1, 0xefbe4786, 0x0fc19dc6, 0x240ca1cc,
    0x2de92c6f, 0x4a7484aa, 0x5cb0a9dc, 0x76f988da,
    0x983e5152, 0xa831c66d, 0xb00327c8, 0xbf597fc7,
    0xc6e00bf3, 0xd5a79147, 0x06ca6351, 0x14292967,
    0x27b70a85, 0x2e1b2138, 0x4d2c6dfc, 0x53380d13,
    0x650a7354, 0x766a0abb, 0x81c2c92e, 0x92722c85,
    0xa2bfe8a1, 0xa81a664b, 0xc24b8b70, 0xc76c51a3,
    0xd192e819, 0xd6990624, 0xf40e3585, 0x106aa070,
    0x19a4c116, 0x1e376c08, 0x2748774c, 0x34b0bcb5,
    0x391c0cb3, 0x4ed8aa4a, 0x5b9cca4f, 0x682e6ff3,
    0x748f82ee, 0x78a5636f, 0x84c87814, 0x8cc70208,
    0x90befffa, 0xa4506ceb, 0xbef9a3f7, 0xc67178f2]

/-- `SHA256_DIGEST_SIZE` -/
abbrev sha256DigestSize : Nat := 32

/-- The eight words of `HashValue`, and of the working variables `a` to `h`. -/
structure Sha256Words where
  a : UInt32
  b : UInt32
  c : UInt32
  d : UInt32
  e : UInt32
  f : UInt32
  g : UInt32
  h : UInt32

/-- `SHA256_DefaultHashValue` -/
def sha256DefaultHashValue : Sha256Words :=
  ⟨0x6a09e667, 0xbb67ae85, 0x3c6ef372, 0xa54ff53a, 0x510e527f, 0x9b05688c, 0x1f83d9ab, 0x5be0cd19⟩

/-- Round `t`, on the working variables and the array `W`. -/
def sha256Round (vw : Sha256Words × List UInt32) (t : Nat) : Sha256Words × List UInt32 :=
  let v := vw.1
  let w := if 15 < t then
      vw.2.set t (sigma256₁ (vw.2.getD (t - 2) 0) + vw.2.getD (t - 7) 0 +
        sigma256₀ (vw.2.getD (t - 15) 0) + vw.2.getD (t - 16) 0)
    else vw.2
  let t₁ := v.h + zsigma256₁ v.e + ch v.e v.f v.g + sha256K.getD t 0 + w.getD t 0
  let t₂ := zsigma256₀ v.a + maj v.a v.b v.c
  (⟨t₁ + t₂, v.a, v.b, v.c, v.d + t₁, v.e, v.f, v.g⟩, w)

/-- `RT_SHA256_Hash`: the hash value behind a block. -/
def rtSha256Hash (h : Sha256Words) (block : List UInt8) : Sha256Words :=
  let v := ((List.range 64).foldl sha256Round (h, wordsOf block ++ List.replicate 48 0)).1
  ⟨h.a + v.a, h.b + v.b, h.c + v.c, h.d + v.d, h.e + v.e, h.f + v.f, h.g + v.g, h.h + v.h⟩

/-- What the code of SHA-256 has of its own. -/
def sha256Code : HashCode Sha256Words where
  defaultHashValue := sha256DefaultHashValue
  hash := rtSha256Hash
  lengthOctets bits := octetsOf (bits >>> 32).toUInt32 ++ octetsOf bits.toUInt32
  octets h := octetsOf h.a ++ octetsOf h.b ++ octetsOf h.c ++ octetsOf h.d ++ octetsOf h.e ++
    octetsOf h.f ++ octetsOf h.g ++ octetsOf h.h
  digestSize := sha256DigestSize

/-! ## 2. A block -/

/-- The words of the driver's context are words of the standard. -/
def Sha256Words.toSpec (h : Sha256Words) : Fips180.Sha256.Words :=
  ⟨h.a, h.b, h.c, h.d, h.e, h.f, h.g, h.h⟩

/-- **The array at round `t`** holds the schedule, up to the word of the round before and at least the
words of the block. -/
structure ScheduleUpTo (block : List UInt8) (t : Nat) (w : List UInt32) : Prop where
  length : w.length = 64
  word : ∀ j, j < 16 ∨ j < t → w.getD j 0 = Fips180.Sha256.schedule block j

section

variable {block : List UInt8}

theorem scheduleUpTo_zero (h : block.length = 64) :
    ScheduleUpTo block 0 (wordsOf block ++ List.replicate 48 0) := by
  have hwords := wordsOf_eq (show block.length = 4 * 16 from h)
  refine ⟨?_, ?_⟩
  · rw [hwords, List.length_append, List.length_map, List.length_range, List.length_replicate]
  · intro j hj
    have hj16 : j < 16 := by omega
    rw [hwords, List.getD_eq_getElem?_getD, List.getElem?_append_left (by simpa using hj16),
      List.getElem?_map, List.getElem?_range hj16, Fips180.Sha256.schedule, if_pos hj16]
    rfl

/-- **A round**: the array has the word of it afterwards, and the variables are the standard's. -/
theorem sha256Round_toSpec {t : Nat} {w : List UInt32} (ht : t < 64) (hw : ScheduleUpTo block t w)
    (v : Sha256Words) :
    (sha256Round (v, w) t).1.toSpec =
      Fips180.Sha256.round (Fips180.Sha256.schedule block) v.toSpec t ∧
    ScheduleUpTo block (t + 1) (sha256Round (v, w) t).2 := by
  obtain ⟨w', hw'⟩ : ∃ w', w' = (sha256Round (v, w) t).2 := ⟨_, rfl⟩
  have hnext : ScheduleUpTo block (t + 1) w' := by
    rw [hw', sha256Round]
    dsimp only
    by_cases hlate : 15 < t
    · rw [if_pos hlate]
      refine ⟨by rw [List.length_set, hw.length], fun j hj => ?_⟩
      rw [List.getD_eq_getElem?_getD, List.getElem?_set, hw.length]
      by_cases hjt : t = j
      · rw [if_pos hjt, if_pos ht, Option.getD_some, ← hjt, hw.word _ (by omega), hw.word _ (by omega),
          hw.word _ (by omega), hw.word _ (by omega), Fips180.Sha256.schedule.eq_def block t,
          if_neg (by omega)]
        rfl
      · rw [if_neg hjt, ← List.getD_eq_getElem?_getD]
        exact hw.word j (by omega)
    · rw [if_neg hlate]
      exact ⟨hw.length, fun j hj => hw.word j (by omega)⟩
  refine ⟨?_, hw' ▸ hnext⟩
  have hword : w'.getD t 0 = Fips180.Sha256.schedule block t := hnext.word t (by omega)
  have hround : (sha256Round (v, w) t).1 =
      ⟨v.h + zsigma256₁ v.e + ch v.e v.f v.g + sha256K.getD t 0 + w'.getD t 0 +
        (zsigma256₀ v.a + maj v.a v.b v.c), v.a, v.b, v.c,
        v.d + (v.h + zsigma256₁ v.e + ch v.e v.f v.g + sha256K.getD t 0 + w'.getD t 0), v.e, v.f,
        v.g⟩ := by
    rw [hw']
    rfl
  rw [hround, hword]
  rfl

/-- **A block is taken in as the standard says.** -/
theorem rtSha256Hash_toSpec (h : Sha256Words) (hblock : block.length = 64) :
    (rtSha256Hash h block).toSpec = Fips180.Sha256.compress h.toSpec block := by
  have hrounds : ∀ n ≤ 64,
      ((List.range n).foldl sha256Round (h, wordsOf block ++ List.replicate 48 0)).1.toSpec =
        (List.range n).foldl (Fips180.Sha256.round (Fips180.Sha256.schedule block)) h.toSpec ∧
      ScheduleUpTo block n
        ((List.range n).foldl sha256Round (h, wordsOf block ++ List.replicate 48 0)).2 := by
    intro n
    induction n with
    | zero => exact fun _ => ⟨rfl, scheduleUpTo_zero hblock⟩
    | succ n ih =>
      intro hn
      obtain ⟨hvalue, hschedule⟩ := ih (by omega)
      have hround := sha256Round_toSpec (by omega) hschedule
        ((List.range n).foldl sha256Round (h, wordsOf block ++ List.replicate 48 0)).1
      rw [List.range_succ, List.foldl_append, List.foldl_append, List.foldl_cons, List.foldl_nil,
        List.foldl_cons, List.foldl_nil, ← hvalue]
      exact hround
  rw [Fips180.Sha256.compress, ← (hrounds 64 (Nat.le_refl 64)).1]
  rfl

end

theorem sha256Code_implements : sha256Code.Implements Fips180.Sha256.blocks Sha256Words.toSpec where
  initial := rfl
  compress h _ hblock := rtSha256Hash_toSpec h hblock
  lengthOctets := octetsOf_bits
  octets h := by
    change octetsOf h.a ++ octetsOf h.b ++ octetsOf h.c ++ octetsOf h.d ++ octetsOf h.e ++
      octetsOf h.f ++ octetsOf h.g ++ octetsOf h.h = _
    rw [octetsOf_eq, octetsOf_eq, octetsOf_eq, octetsOf_eq, octetsOf_eq, octetsOf_eq, octetsOf_eq,
      octetsOf_eq]
    rfl
  digestSize := Fips180.Sha256.length_digest

end Mt7601.Crypt
