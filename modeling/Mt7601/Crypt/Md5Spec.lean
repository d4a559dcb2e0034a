/-
# The driver's MD5 is MD5

The block function of `common/crypt_md5.c` against RFC 1321: four lists of operations written out
against sixty-four operations given by their number. What is around it is as for SHA-1.
-/
import Mt7601.Crypt.Md5
import Mt7601.Crypt.Sha1Spec
import Mt7601.Lib.Rfc1321

namespace Mt7601.Crypt

open Rfc1321 (leOctets)

/-! ## 1. Words and octets -/

theorem leOctetsOf_eq (w : UInt32) : leOctetsOf w = leOctets 4 w.toNat := by
  rw [leOctetsOf, leOctets, octetsOf_eq]

/-- A number of 64 bits in two words, the lower first. -/
theorem leOctetsOf_bits (v : Nat) :
    leOctetsOf (UInt64.ofNat v).toUInt32 ++ leOctetsOf (UInt64.ofNat v >>> 32).toUInt32 =
      leOctets 8 v := by
  rw [leOctetsOf, leOctetsOf, leOctets, ← octetsOf_bits, List.reverse_append]

/-- The words of a block. -/
theorem leWordsOf_eq {n : Nat} : ∀ {l : List UInt8}, l.length = 4 * n →
    leWordsOf l = (List.range n).map (Rfc1321.wordAt l) := by
  induction n with
  | zero =>
    intro l h
    rw [List.eq_nil_of_length_eq_zero h]
    rfl
  | succ n ih =>
    rintro (_ | ⟨b₀, _ | ⟨b₁, _ | ⟨b₂, _ | ⟨b₃, l⟩⟩⟩⟩) h
    · exact absurd h (by simp)
    · exact absurd h (by simp; omega)
    · exact absurd h (by simp; omega)
    · exact absurd h (by simp; omega)
    · have hl : l.length = 4 * n := by
        simp only [List.length_cons] at h
        omega
      have hnext : ∀ t, Rfc1321.wordAt (b₀ :: b₁ :: b₂ :: b₃ :: l) (t + 1) = Rfc1321.wordAt l t :=
        fun t => by
          rw [Rfc1321.wordAt, Rfc1321.wordAt, Mem.read, Mem.read, Nat.mul_succ]
          rfl
      rw [leWordsOf, ih hl, wordOf_eq, List.range_succ_eq_map, List.map_cons, List.map_map]
      exact congrArg _ (List.map_congr_left fun t _ => (hnext t).symm)

/-! ## 2. A block -/

/-- The words of the driver's context are words of the standard. -/
def Md5Words.toSpec (h : Md5Words) : Rfc1321.Words := ⟨h.a, h.b, h.c, h.d⟩

/-- What an operation takes by its number. -/
def md5Op (i : Nat) : Nat × UInt32 × UInt32 := (Rfc1321.k i, Rfc1321.shift i, Rfc1321.t i)

/-- The lists of the driver are the operations of the standard. -/
theorem md5Round1_eq : md5Round1 = (List.range' 0 16).map md5Op := by decide
theorem md5Round2_eq : md5Round2 = (List.range' 16 16).map md5Op := by decide
theorem md5Round3_eq : md5Round3 = (List.range' 32 16).map md5Op := by decide
theorem md5Round4_eq : md5Round4 = (List.range' 48 16).map md5Op := by decide

theorem k_lt (i : Nat) : Rfc1321.k i < 16 := by
  rw [Rfc1321.k]
  split_ifs <;> omega

theorem md5Operation_toSpec {f : UInt32 → UInt32 → UInt32 → UInt32} {block : List UInt8} {i : Nat}
    (hblock : block.length = 64) (hf : Rfc1321.f i = f) (v : Md5Words) :
    (md5Operation f (leWordsOf block) v (md5Op i)).toSpec = Rfc1321.operation block v.toSpec i := by
  have hword : (leWordsOf block).getD (Rfc1321.k i) 0 = Rfc1321.wordAt block (Rfc1321.k i) := by
    rw [leWordsOf_eq (show block.length = 4 * 16 from hblock), List.getD_eq_getElem?_getD,
      List.getElem?_map, List.getElem?_range (k_lt i)]
    rfl
  rw [md5Operation, Rfc1321.operation, md5Op, hword, hf, UInt32.add_comm _ v.b, ← UInt32.add_assoc, ← UInt32.add_assoc]
  rfl

/-- One of the four rounds. -/
theorem foldl_md5Operation {f : UInt32 → UInt32 → UInt32 → UInt32} {block : List UInt8}
    (hblock : block.length = 64) (l : List Nat) (hf : ∀ i ∈ l, Rfc1321.f i = f) (v : Md5Words) :
    ((l.map md5Op).foldl (md5Operation f (leWordsOf block)) v).toSpec =
      l.foldl (Rfc1321.operation block) v.toSpec := by
  induction l generalizing v with
  | nil => rfl
  | cons i l ih =>
    rw [List.map_cons, List.foldl_cons, List.foldl_cons,
      ih fun j hj => hf j (List.mem_cons_of_mem _ hj),
      md5Operation_toSpec hblock (hf i List.mem_cons_self)]

/-- **A block is taken in as the standard says.** -/
theorem rtMd5Hash_hashValue (ctx : Md5Ctx) :
    (rtMd5Hash ctx).hashValue.toSpec =
      Rfc1321.compress ctx.hashValue.toSpec (ctx.block.takeD md5BlockSize 0) := by
  have hblock : (ctx.block.takeD md5BlockSize 0).length = 64 := List.takeD_length _ _ _
  have hf₁ : ∀ i ∈ List.range' 0 16, Rfc1321.f i = md5F := by
    intro i hi
    rw [List.mem_range'_1] at hi
    rw [Rfc1321.f, if_pos (by omega)]
    rfl
  have hf₂ : ∀ i ∈ List.range' 16 16, Rfc1321.f i = md5G := by
    intro i hi
    rw [List.mem_range'_1] at hi
    rw [Rfc1321.f, if_neg (by omega), if_pos (by omega)]
    rfl
  have hf₃ : ∀ i ∈ List.range' 32 16, Rfc1321.f i = md5H := by
    intro i hi
    rw [List.mem_range'_1] at hi
    rw [Rfc1321.f, if_neg (by omega), if_neg (by omega), if_pos (by omega)]
    rfl
  have hf₄ : ∀ i ∈ List.range' 48 16, Rfc1321.f i = md5I := by
    intro i hi
    rw [List.mem_range'_1] at hi
    rw [Rfc1321.f, if_neg (by omega), if_neg (by omega), if_neg (by omega)]
    rfl
  have hall : List.range 64 =
      List.range' 0 16 ++ List.range' 16 16 ++ List.range' 32 16 ++ List.range' 48 16 := by decide
  rw [Rfc1321.compress, hall, List.foldl_append, List.foldl_append, List.foldl_append,
    ← foldl_md5Operation hblock _ hf₁, ← foldl_md5Operation hblock _ hf₂,
    ← foldl_md5Operation hblock _ hf₃, ← foldl_md5Operation hblock _ hf₄, ← md5Round1_eq, ← md5Round2_eq, ← md5Round3_eq, ← md5Round4_eq]
  rfl

/-- What the code of MD5 has of its own. -/
def md5Code : HashCode Md5Words where
  defaultHashValue := md5DefaultHashValue
  hash h block := (rtMd5Hash { hashValue := h, block }).hashValue
  lengthOctets bits := leOctetsOf bits.toUInt32 ++ leOctetsOf (bits >>> 32).toUInt32
  octets h := leOctetsOf h.a ++ leOctetsOf h.b ++ leOctetsOf h.c ++ leOctetsOf h.d
  digestSize := md5DigestSize

theorem md5Code_implements : md5Code.Implements Rfc1321.blocks Md5Words.toSpec where
  initial := rfl
  compress h block hblock := by
    have htake : block.takeD md5BlockSize 0 = block := by
      rw [md5BlockSize, List.takeD_eq_take 0 (Nat.le_of_eq hblock.symm),
        List.take_of_length_le (Nat.le_of_eq hblock)]
    have hvalue := rtMd5Hash_hashValue { hashValue := h, block }
    rw [htake] at hvalue
    exact hvalue
  lengthOctets := leOctetsOf_bits
  octets h := by
    change leOctetsOf h.a ++ leOctetsOf h.b ++ leOctetsOf h.c ++ leOctetsOf h.d = _
    rw [leOctetsOf_eq, leOctetsOf_eq, leOctetsOf_eq, leOctetsOf_eq]
    rfl
  digestSize := Rfc1321.length_digest

end Mt7601.Crypt
