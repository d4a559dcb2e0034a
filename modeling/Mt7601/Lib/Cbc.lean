/-
# Cipher block chaining

A text of whole blocks under a block cipher, each block added to the one enciphered before it. The
two directions undo each other over any cipher that has an inverse (`decipher_encipher`,
`encipher_decipher`), and what a block comes to depends on what is in front of it alone
(`encipher_concat`, `decipher_concat`).

A text that need not be whole blocks is filled up first, always by at least one octet, each of them
the number of octets filled in (`padded`).
-/
import Mt7601.Lib.Ccm

namespace Cbc

/-! ## 1. Blocks of a text -/

/-- The octets of a list of blocks. -/
def octets : List (Octets 16) → List UInt8
  | [] => []
  | b :: bs => b.toList ++ octets bs

/-- The first `n` blocks of a text. -/
def blocks : Nat → List UInt8 → List (Octets 16)
  | 0, _ => []
  | n + 1, l => .ofList 16 l :: blocks n (l.drop 16)

@[simp] theorem length_octets (bs : List (Octets 16)) : (octets bs).length = 16 * bs.length := by
  induction bs with
  | nil => rfl
  | cons b bs ih =>
    rw [octets, List.length_append, ih, List.Vector.toList_length, List.length_cons]
    omega

@[simp] theorem length_blocks (n : Nat) (l : List UInt8) : (blocks n l).length = n := by
  induction n generalizing l with
  | zero => rfl
  | succ n ih => rw [blocks, List.length_cons, ih]

theorem octets_append (bs cs : List (Octets 16)) : octets (bs ++ cs) = octets bs ++ octets cs := by
  induction bs with
  | nil => rfl
  | cons b bs ih => rw [List.cons_append, octets, octets, ih, List.append_assoc]

theorem octets_concat (bs : List (Octets 16)) (b : Octets 16) :
    octets (bs ++ [b]) = octets bs ++ b.toList := by
  rw [octets_append, octets, octets, List.append_nil]

/-- One block more. -/
theorem blocks_succ (n : Nat) (l : List UInt8) :
    blocks (n + 1) l = blocks n l ++ [.ofList 16 (Mem.read l (16 * n) 16)] := by
  induction n generalizing l with
  | zero =>
    refine congrArg (· :: []) (List.Vector.toList_injective ?_)
    rw [Mem.read, Octets.toList_ofList, Octets.toList_ofList,
      List.takeD_eq_take 0 (Nat.le_of_eq (List.takeD_length _ _ _).symm),
      List.take_of_length_le (Nat.le_of_eq (List.takeD_length _ _ _))]
    rfl
  | succ n ih =>
    have hread : Mem.read (l.drop 16) (16 * n) 16 = Mem.read l (16 * (n + 1)) 16 := by
      rw [Mem.read, Mem.read, List.drop_drop, Nat.add_comm]
      rfl
    rw [blocks, ih, hread]
    rfl

/-- **Blocks put together and cut again.** -/
theorem blocks_octets (bs : List (Octets 16)) (rest : List UInt8) :
    blocks bs.length (octets bs ++ rest) = bs := by
  induction bs with
  | nil => rfl
  | cons b bs ih =>
    have hfirst : Octets.ofList 16 (b.toList ++ (octets bs ++ rest)) = b := by
      refine List.Vector.toList_injective ?_
      rw [Octets.toList_ofList, List.takeD_eq_take 0 (by simp), List.take_left' b.toList_length]
    rw [List.length_cons, octets, List.append_assoc, blocks, hfirst, List.drop_left' b.toList_length,
      ih]

/-- **A text of whole blocks cut and put together again.** -/
theorem octets_blocks {n : Nat} {l : List UInt8} (h : l.length = 16 * n) :
    octets (blocks n l) = l := by
  induction n generalizing l with
  | zero => exact (List.length_eq_zero_iff.mp h).symm
  | succ n ih =>
    have hfirst : (Octets.ofList 16 l).toList = l.take 16 := by
      rw [Octets.toList_ofList, List.takeD_eq_take 0 (by omega)]
    rw [blocks, octets, ih (by rw [List.length_drop]; omega), hfirst, List.take_append_drop]

/-- The blocks of a text are those of any text that it begins. -/
theorem blocks_append {n : Nat} {l : List UInt8} (h : 16 * n ≤ l.length) (rest : List UInt8) :
    blocks n (l ++ rest) = blocks n l := by
  have hlen : (l.take (16 * n)).length = 16 * n := by
    rw [List.length_take]
    omega
  have hcut : ∀ behind : List UInt8, blocks n (l.take (16 * n) ++ behind) =
      blocks n (l.take (16 * n)) := by
    intro behind
    have hboth := blocks_octets (blocks n (l.take (16 * n)))
    rw [length_blocks, octets_blocks hlen] at hboth
    rw [hboth]
  have hsplit : l = l.take (16 * n) ++ l.drop (16 * n) := (List.take_append_drop _ _).symm
  rw [hsplit, List.append_assoc, hcut, hcut]

/-! ## 2. The chain -/

variable {E D : Octets 16 → Octets 16}

/-- A text behind the block `x`. -/
def encipher (E : Octets 16 → Octets 16) : Octets 16 → List (Octets 16) → List (Octets 16)
  | _, [] => []
  | x, p :: ps => E (Ccm.add p x) :: encipher E (E (Ccm.add p x)) ps

def decipher (D : Octets 16 → Octets 16) : Octets 16 → List (Octets 16) → List (Octets 16)
  | _, [] => []
  | x, c :: cs => Ccm.add (D c) x :: decipher D c cs

@[simp] theorem length_encipher (x : Octets 16) (ps : List (Octets 16)) :
    (encipher E x ps).length = ps.length := by
  induction ps generalizing x with
  | nil => rfl
  | cons p ps ih => rw [encipher, List.length_cons, ih, List.length_cons]

@[simp] theorem length_decipher (x : Octets 16) (cs : List (Octets 16)) :
    (decipher D x cs).length = cs.length := by
  induction cs generalizing x with
  | nil => rfl
  | cons c cs ih => rw [decipher, List.length_cons, ih, List.length_cons]

/-- **What is enciphered is deciphered.** -/
theorem decipher_encipher (h : Function.LeftInverse D E) (x : Octets 16) (ps : List (Octets 16)) :
    decipher D x (encipher E x ps) = ps := by
  induction ps generalizing x with
  | nil => rfl
  | cons p ps ih => rw [encipher, decipher, ih, h, Ccm.add_add_cancel]

/-- **Every text is what some text is enciphered to.** -/
theorem encipher_decipher (h : Function.RightInverse D E) (x : Octets 16)
    (cs : List (Octets 16)) : encipher E x (decipher D x cs) = cs := by
  induction cs generalizing x with
  | nil => rfl
  | cons c cs ih => rw [decipher, encipher, Ccm.add_add_cancel, h, ih]

/-- One block more is added to the last. -/
theorem encipher_concat (x p : Octets 16) (ps : List (Octets 16)) :
    encipher E x (ps ++ [p]) =
      encipher E x ps ++ [E (Ccm.add p ((encipher E x ps).getLastD x))] := by
  induction ps generalizing x with
  | nil => rfl
  | cons q ps ih => rw [List.cons_append, encipher, ih, encipher, List.cons_append, List.getLastD_cons]

theorem decipher_concat (x c : Octets 16) (cs : List (Octets 16)) :
    decipher D x (cs ++ [c]) = decipher D x cs ++ [Ccm.add (D c) (cs.getLastD x)] := by
  induction cs generalizing x with
  | nil => rfl
  | cons d cs ih => rw [List.cons_append, decipher, ih, decipher, List.cons_append, List.getLastD_cons]

/-! ## 3. Filling up -/

/-- The octets that a text lacks to whole blocks, a whole block if it lacks none. -/
def padLength (l : List UInt8) : Nat := 16 - l.length % 16

/-- The text filled up with the number of octets it lacks. -/
def padded (l : List UInt8) : List UInt8 :=
  l ++ List.replicate (padLength l) (UInt8.ofNat (padLength l))

theorem padLength_bounds (l : List UInt8) : 0 < padLength l ∧ padLength l ≤ 16 := by
  rw [padLength]
  omega

theorem length_padded (l : List UInt8) : (padded l).length = 16 * (l.length / 16 + 1) := by
  rw [padded, List.length_append, List.length_replicate, padLength]
  omega

/-- The last octet says how many were filled in. -/
theorem getLastD_padded (l : List UInt8) : ((padded l).getLastD 0).toNat = padLength l := by
  obtain ⟨hpos, hle⟩ := padLength_bounds l
  obtain ⟨n, hn⟩ := Nat.exists_eq_succ_of_ne_zero hpos.ne'
  rw [padded, hn, List.replicate_succ', ← List.append_assoc, List.getLastD_concat,
    UInt8.toNat_ofNat']
  omega

end Cbc
