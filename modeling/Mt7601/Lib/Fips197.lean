/-
# The Advanced Encryption Standard

FIPS 197 as the standard writes it, for keys of `nk` words: the field of 256 elements, the S-box as
an inverse and an affine map, the state as four rows of four octets, the key expansion and the
cipher. Nothing here is made to be fast; it is what an implementation is held against.
-/
import Mt7601.Lib.Octets

namespace Fips197

/-! ## 1. The field

A polynomial over the field of two elements is the number whose binary digits are its coefficients;
an octet is one of degree at most 7. -/

/-- Times `x`, reduced by `x⁸ + x⁴ + x³ + x + 1`. -/
def xtimes (p : Nat) : Nat :=
  if p < 128 then 2 * p else 2 * p ^^^ 0x11b

/-- `p` times the first `n` coefficients of `q`. -/
def mulMod (p : Nat) : Nat → Nat → Nat
  | 0, _ => 0
  | n + 1, q => (if q % 2 = 1 then p else 0) ^^^ xtimes (mulMod p n (q / 2))

/-- The power 254 of `p`: the product of the squares of `p`, of its square, and so on. -/
def invMod (p : Nat) : Nat :=
  ((List.range 7).foldl (fun (s : Nat × Nat) _ =>
    let square := mulMod s.2 8 s.2
    (mulMod s.1 8 square, square)) (1, p)).1

/-- The product of octets. -/
def mul (a b : UInt8) : UInt8 := UInt8.ofNat (mulMod a.toNat 8 b.toNat)

/-- The inverse; zero stays zero. -/
def inv (b : UInt8) : UInt8 := UInt8.ofNat (invMod b.toNat)

/-- The affine map of the S-box: bit `i` is the sum of the bits `i`, `i + 4`, `i + 5`, `i + 6` and
`i + 7` and of bit `i` of `0x63`. -/
def affine (b : BitVec 8) : BitVec 8 :=
  b ^^^ b.rotateLeft 4 ^^^ b.rotateLeft 3 ^^^ b.rotateLeft 2 ^^^ b.rotateLeft 1 ^^^ 0x63

/-- `SBOX()` -/
def sBox (b : UInt8) : UInt8 := ⟨affine (inv b).toBitVec⟩

/-! ## 2. The state -/

/-- The state, by row and column. -/
abbrev State := Fin 4 → Fin 4 → UInt8

/-- A block fills the state column by column. -/
def input (block : Octets 16) : State := fun r c => block.toList.getD (r + 4 * c) 0

def output (s : State) : Octets 16 :=
  .ofList 16 ((List.range 16).map fun i => s (Fin.ofNat 4 (i % 4)) (Fin.ofNat 4 (i / 4)))

/-- `SUBBYTES()` -/
def subBytes (s : State) : State := fun r c => sBox (s r c)

/-- `SHIFTROWS()`: row `r` is rotated by `r` places. -/
def shiftRows (s : State) : State := fun r c => s r (c + r)

/-- `MIXCOLUMNS()`: each column by the circulant matrix of `2, 3, 1, 1`. -/
def mixColumns (s : State) : State := fun r c =>
  mul 2 (s r c) ^^^ mul 3 (s (r + 1) c) ^^^ s (r + 2) c ^^^ s (r + 3) c

/-- A word of the key schedule. -/
abbrev Word := Fin 4 → UInt8

/-- `ADDROUNDKEY()` with the four words of a round. -/
def addRoundKey (w : Nat → Word) (round : Nat) (s : State) : State := fun r c =>
  s r c ^^^ w (4 * round + c) r

/-! ## 3. Key expansion -/

/-- `ROTWORD()` -/
def rotWord (w : Word) : Word := fun r => w (r + 1)

/-- `SUBWORD()` -/
def subWord (w : Word) : Word := fun r => sBox (w r)

/-- `Rcon[j]`: a power of `x`, and three zeros. -/
def rcon (j : Nat) : Word := fun r => if r = 0 then UInt8.ofNat (xtimes^[j - 1] 1) else 0

def addWord (u v : Word) : Word := fun r => u r ^^^ v r

/-- `temp` for the word `i`, from the word before it. -/
def temp (nk i : Nat) (w : Word) : Word :=
  if i % nk = 0 then addWord (subWord (rotWord w)) (rcon (i / nk))
  else if 6 < nk ∧ i % nk = 4 then subWord w
  else w

/-- Word `i` of `KEYEXPANSION()` for a key of `nk` words. -/
def word (nk : Nat) (key : List UInt8) (i : Nat) : Word :=
  if i < nk ∨ nk = 0 then fun r => key.getD (4 * i + r) 0
  else addWord (word nk key (i - nk)) (temp nk i (word nk key (i - 1)))
termination_by i

theorem word_of_lt {nk i : Nat} (key : List UInt8) (h : i < nk) :
    word nk key i = fun r : Fin 4 => key.getD (4 * i + r) 0 := by
  rw [word, if_pos (Or.inl h)]

theorem word_of_le {nk i : Nat} (key : List UInt8) (hpos : 0 < nk) (h : nk ≤ i) :
    word nk key i = addWord (word nk key (i - nk)) (temp nk i (word nk key (i - 1))) := by
  rw [word, if_neg (by omega)]

/-! ## 4. The cipher -/

/-- The state once the round key of `round` has been added. -/
def afterRound (w : Nat → Word) (s : State) : Nat → State
  | 0 => addRoundKey w 0 s
  | round + 1 => addRoundKey w (round + 1) (mixColumns (shiftRows (subBytes (afterRound w s round))))

/-- `CIPHER()` in `nr` rounds, the last of which does not mix. -/
def encrypt (w : Nat → Word) (nr : Nat) (block : Octets 16) : Octets 16 :=
  output (addRoundKey w nr (shiftRows (subBytes (afterRound w (input block) (nr - 1)))))

/-- AES for a key of 16, 24 or 32 octets. -/
def cipher (key : List UInt8) (block : Octets 16) : Octets 16 :=
  encrypt (word (key.length / 4) key) (key.length / 4 + 6) block

end Fips197
