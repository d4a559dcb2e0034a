/-
# Words of 32 bits in octets, the lowest first

`word` reads up to four octets, `octets` writes four; each undoes the other (`word_octets`,
`octets_word`).
-/
import Mathlib.Data.List.GetD

namespace LeWord

/-- A word, of up to four octets. -/
def word : List UInt8 → BitVec 32
  | [] => 0
  | b :: bs => word bs <<< 8 ||| b.toBitVec.setWidth 32

/-- The octets of a word. -/
def octets (x : BitVec 32) : List UInt8 :=
  [⟨x.setWidth 8⟩, ⟨(x >>> 8).setWidth 8⟩, ⟨(x >>> 16).setWidth 8⟩, ⟨(x >>> 24).setWidth 8⟩]

/-- One octet more. -/
theorem word_concat (l : List UInt8) (b : UInt8) :
    word (l ++ [b]) = word l ||| b.toBitVec.setWidth 32 <<< (8 * l.length) := by
  induction l with
  | nil => simp [word]
  | cons a l ih =>
    rw [List.cons_append, word, word, ih, BitVec.shiftLeft_or_distrib, ← BitVec.shiftLeft_add,
      List.length_cons, Nat.mul_succ, BitVec.or_assoc, BitVec.or_assoc]
    rw [BitVec.or_comm (BitVec.setWidth 32 a.toBitVec)]

/-- The octets of a word one by one. -/
theorem word_four (a b c d : UInt8) :
    word [a, b, c, d] = a.toBitVec.setWidth 32 ||| b.toBitVec.setWidth 32 <<< 8 |||
      c.toBitVec.setWidth 32 <<< 16 ||| d.toBitVec.setWidth 32 <<< 24 := by
  have hthree := word_concat [a, b, c] d
  have htwo := word_concat [a, b] c
  have hone := word_concat [a] b
  rw [List.cons_append, List.cons_append, List.cons_append, List.nil_append] at hthree
  rw [List.cons_append, List.cons_append, List.nil_append] at htwo
  rw [List.cons_append, List.nil_append] at hone
  rw [hthree, htwo, hone]
  simp [word]

/-- Bit `i` of a word is that of octet `i / 8`. -/
theorem getLsbD_word {l : List UInt8} (hlen : l.length ≤ 4) (i : Nat) :
    (word l).getLsbD i = (l.getD (i / 8) 0).toBitVec.getLsbD (i % 8) := by
  induction l generalizing i with
  | nil => simp [word]
  | cons a l ih =>
    rw [List.length_cons] at hlen
    rw [word, BitVec.getLsbD_or, BitVec.getLsbD_shiftLeft, BitVec.getLsbD_setWidth]
    rcases Nat.lt_or_ge i 8 with hlt | hge
    · rw [Nat.div_eq_of_lt hlt, Nat.mod_eq_of_lt hlt, List.getD_cons_zero]
      simp [hlt, show i < 32 by omega]
    · obtain ⟨k, rfl⟩ : ∃ k, i = k + 8 := ⟨i - 8, by omega⟩
      rw [Nat.add_sub_cancel, ih (by omega), show (k + 8) / 8 = k / 8 + 1 by omega,
        show (k + 8) % 8 = k % 8 by omega, List.getD_cons_succ,
        BitVec.getLsbD_of_ge a.toBitVec (k + 8) (by omega), Bool.and_false, Bool.or_false]
      rcases Nat.lt_or_ge (k + 8) 32 with hk | hk
      · simp [hk]
      · have hnone : l.getD (k / 8) 0 = 0 := List.getD_eq_default _ _ (by omega)
        rw [hnone]
        simp

theorem getD_octets (x : BitVec 32) :
    ∀ j < 4, (octets x).getD j 0 = ⟨(x >>> (8 * j)).setWidth 8⟩
  | 0, _ => rfl
  | 1, _ => rfl
  | 2, _ => rfl
  | 3, _ => rfl

theorem word_octets (x : BitVec 32) : word (octets x) = x := by
  refine BitVec.eq_of_getLsbD_eq fun i hi => ?_
  have hlen : (octets x).length ≤ 4 := Nat.le_refl 4
  have hbit : 8 * (i / 8) + i % 8 = i := Nat.div_add_mod i 8
  rw [getLsbD_word hlen, getD_octets x _ (by omega), BitVec.getLsbD_setWidth,
    BitVec.getLsbD_ushiftRight, hbit, decide_eq_true (Nat.mod_lt i (by decide)), Bool.true_and]

theorem word_injective {l m : List UInt8} (hl : l.length = 4) (hm : m.length = 4)
    (h : word l = word m) : l = m := by
  refine List.ext_getElem (hl.trans hm.symm) fun k hk hk' => ?_
  refine UInt8.toBitVec_inj.mp (BitVec.eq_of_getLsbD_eq fun i hi => ?_)
  have hbit := congrArg (fun x : BitVec 32 => x.getLsbD (8 * k + i)) h
  simp only [getLsbD_word (Nat.le_of_eq hl), getLsbD_word (Nat.le_of_eq hm),
    show (8 * k + i) / 8 = k by omega, show (8 * k + i) % 8 = i by omega] at hbit
  rwa [List.getD_eq_getElem _ 0 hk, List.getD_eq_getElem _ 0 hk'] at hbit

/-- A word is read where its octets stand. -/
theorem word_eq_iff {l : List UInt8} (hl : l.length = 4) (x : BitVec 32) :
    word l = x ↔ l = octets x := by
  constructor
  · intro h
    exact word_injective hl rfl (h.trans (word_octets x).symm)
  · rintro rfl
    exact word_octets x

end LeWord
