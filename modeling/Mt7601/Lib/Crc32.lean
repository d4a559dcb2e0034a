/-
# CRC-32

The check sequence of IEEE 802 bit by bit: a register of 32 bits that goes down one place for each bit,
with the polynomial added where a one falls out. It is linear (`places_xor`), so eight places can be
done at once with what they make of the lowest octet (`byte_eq`).
-/
import Mt7601.Lib.LeWord

namespace Crc32

/-! ## 1. The register -/

/-- The polynomial, its highest term left out. -/
def poly : BitVec 32 := 0xedb88320

/-- One place down. -/
def place (c : BitVec 32) : BitVec 32 := if c.getLsbD 0 then c >>> 1 ^^^ poly else c >>> 1

/-- `n` places. -/
def places : Nat → BitVec 32 → BitVec 32
  | 0, c => c
  | n + 1, c => places n (place c)

/-- The register after one octet more. -/
def byte (c : BitVec 32) (b : UInt8) : BitVec 32 := places 8 (c ^^^ b.toBitVec.setWidth 32)

/-- The register after some octets more. -/
def register (c : BitVec 32) (l : List UInt8) : BitVec 32 := l.foldl byte c

/-- The check sequence: the register begins with ones and is complemented in the end. -/
def sequence (l : List UInt8) : BitVec 32 := ~~~ register (BitVec.allOnes 32) l

/-- As it is sent. -/
def octets (l : List UInt8) : List UInt8 := LeWord.octets (sequence l)

/-! ## 2. Eight places at once -/

theorem place_xor (a b : BitVec 32) : place (a ^^^ b) = place a ^^^ place b := by
  rw [place, place, place, BitVec.getLsbD_xor, BitVec.ushiftRight_xor_distrib]
  cases a.getLsbD 0 <;> cases b.getLsbD 0
  · rfl
  · exact BitVec.xor_assoc _ _ _
  · simp only [Bool.true_xor, Bool.not_false, if_true, Bool.false_eq_true, if_false]
    ac_rfl
  · have hcancel : poly ^^^ poly = 0 := BitVec.xor_self
    simp only [Bool.true_xor, Bool.not_true, Bool.false_eq_true, if_false, if_true]
    calc a >>> 1 ^^^ b >>> 1 = a >>> 1 ^^^ b >>> 1 ^^^ (poly ^^^ poly) := by
          rw [hcancel]
          exact BitVec.xor_zero.symm
      _ = a >>> 1 ^^^ poly ^^^ (b >>> 1 ^^^ poly) := by ac_rfl

theorem places_xor (n : Nat) (a b : BitVec 32) :
    places n (a ^^^ b) = places n a ^^^ places n b := by
  induction n generalizing a b with
  | zero => rfl
  | succ n ih => rw [places, places, places, place_xor, ih]

/-- Nothing is added as long as zeros fall out. -/
theorem places_of_zeros {n : Nat} {c : BitVec 32} (h : ∀ i < n, c.getLsbD i = false) :
    places n c = c >>> n := by
  induction n generalizing c with
  | zero => exact (BitVec.ushiftRight_zero c).symm
  | succ n ih =>
    have hfirst : place c = c >>> 1 := by
      rw [place, h 0 (Nat.succ_pos n)]
      rfl
    have hrest : ∀ i < n, (c >>> 1).getLsbD i = false := by
      intro i hi
      rw [BitVec.getLsbD_ushiftRight, Nat.add_comm]
      exact h (i + 1) (Nat.succ_lt_succ hi)
    rw [places, hfirst, ih hrest, ← BitVec.shiftRight_add, Nat.add_comm]

/-- The lowest octet makes what is added; the others come down. -/
theorem places_eight (c : BitVec 32) : places 8 c = c >>> 8 ^^^ places 8 (c &&& 0xff) := by
  have hmask : ∀ i, (0xff : BitVec 32).getLsbD i = decide (i < 8) := by
    intro i
    rw [BitVec.getLsbD, show (0xff : BitVec 32).toNat = 2 ^ 8 - 1 from rfl,
      Nat.testBit_two_pow_sub_one]
  have hsplit : c = (c ^^^ (c &&& 0xff)) ^^^ (c &&& 0xff) := by
    rw [BitVec.xor_assoc, BitVec.xor_self, BitVec.xor_zero]
  have hzeros : ∀ i < 8, (c ^^^ (c &&& 0xff)).getLsbD i = false := by
    intro i hi
    rw [BitVec.getLsbD_xor, BitVec.getLsbD_and, hmask, decide_eq_true hi, Bool.and_true,
      Bool.xor_self]
  have hhigh : (c ^^^ (c &&& 0xff)) >>> 8 = c >>> 8 := by
    refine BitVec.eq_of_getLsbD_eq fun i _ => ?_
    rw [BitVec.getLsbD_ushiftRight, BitVec.getLsbD_ushiftRight, BitVec.getLsbD_xor,
      BitVec.getLsbD_and, hmask, decide_eq_false (by omega), Bool.and_false, Bool.xor_false]
  calc places 8 c = places 8 ((c ^^^ (c &&& 0xff)) ^^^ (c &&& 0xff)) := by rw [← hsplit]
    _ = c >>> 8 ^^^ places 8 (c &&& 0xff) := by rw [places_xor, places_of_zeros hzeros, hhigh]

/-- **One octet more, with a table of what each octet makes.** -/
theorem byte_eq (c : BitVec 32) (b : UInt8) :
    byte c b = c >>> 8 ^^^ places 8 ((c ^^^ b.toBitVec.setWidth 32) &&& 0xff) := by
  have hoctet : b.toBitVec.setWidth 32 >>> 8 = 0#32 := by
    refine BitVec.eq_of_getLsbD_eq fun i _ => ?_
    rw [BitVec.getLsbD_ushiftRight, BitVec.getLsbD_setWidth,
      BitVec.getLsbD_of_ge b.toBitVec (8 + i) (by omega), Bool.and_false, BitVec.getLsbD_zero]
  rw [byte, places_eight, BitVec.ushiftRight_xor_distrib, hoctet, BitVec.xor_zero]

end Crc32
