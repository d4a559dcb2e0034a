/-
# Hash functions that take a message block by block

MD5 and the functions of the SHA family are one construction: a compression function is folded over
the blocks of 64 octets of the message, behind which a bit `1`, zeros and the length stand. The
construction is over any compression function.

An implementation takes the message piece by piece and keeps a hash value and a block begun. `Holds`
says what they are for a message, and the rules are what such an implementation does: a piece that
fills no block (`Holds.short`), one that fills the block begun (`Holds.close`), and the last one or two
blocks (`absorb_pad_one`, `absorb_pad_two`).
-/
import Mt7601.Lib.Octets

/-- What one hash function has of its own: words `W`, the compression function, the octets of a length
in bits, the octets of a hash value. -/
structure BlockHash (W : Type) where
  initial : W
  compress : W → List UInt8 → W
  lengthOctets : Nat → List UInt8
  digest : W → List UInt8
  length_lengthOctets : ∀ n, (lengthOctets n).length = 8

namespace BlockHash

variable {W : Type} (s : BlockHash W)

/-! ## 1. The construction -/

/-- The blocks of a message: as many as are whole. -/
def block (message : List UInt8) (i : Nat) : List UInt8 := Mem.read message (64 * i) 64

/-- The hash value behind the whole blocks of a message. -/
def absorb (message : List UInt8) : W :=
  (List.range (message.length / 64)).foldl (fun h i => s.compress h (block message i)) s.initial

/-- The zeros of the padding: with the bit `1` and the length the last block is whole. -/
def zeros (n : Nat) : Nat := (119 - n % 64) % 64

def pad (message : List UInt8) : List UInt8 :=
  message ++ 0x80 :: List.replicate (zeros message.length) 0 ++ s.lengthOctets (8 * message.length)

/-- **The hash of a message.** -/
def hash (message : List UInt8) : List UInt8 := s.digest (s.absorb (s.pad message))

/-! ## 2. A message and a piece -/

section

variable {s} {message piece : List UInt8}

/-- A whole block is the same when more comes behind it. -/
theorem block_append {i : Nat} (h : 64 * i + 64 ≤ message.length) :
    block (message ++ piece) i = block message i := by
  have hleft : 64 ≤ (message.drop (64 * i)).length := by
    rw [List.length_drop]
    omega
  rw [block, block, Mem.read, Mem.read, List.drop_append_of_le_length (by omega),
    List.takeD_eq_take 0 hleft, List.takeD_eq_take 0 (by rw [List.length_append]; omega),
    List.take_append_of_le_length hleft]

theorem foldl_blocks_append {n : Nat} (h : 64 * n ≤ message.length) (w : W) :
    (List.range n).foldl (fun h i => s.compress h (block (message ++ piece) i)) w =
      (List.range n).foldl (fun h i => s.compress h (block message i)) w := by
  induction n with
  | zero => rw [List.range_zero, List.foldl_nil, List.foldl_nil]
  | succ n ih =>
    rw [List.range_succ, List.foldl_append, List.foldl_append, ih (by omega), List.foldl_cons,
      List.foldl_cons, block_append (by omega), List.foldl_nil, List.foldl_nil]

/-- A piece that fills no block. -/
theorem absorb_append_short (h : message.length % 64 + piece.length < 64) :
    s.absorb (message ++ piece) = s.absorb message := by
  have hn : (message ++ piece).length / 64 = message.length / 64 := by
    rw [List.length_append]
    omega
  rw [absorb, absorb, hn, foldl_blocks_append (by omega)]

/-- A piece that fills the block begun. -/
theorem absorb_append_block (h : message.length % 64 + piece.length = 64) :
    s.absorb (message ++ piece) =
      s.compress (s.absorb message) (message.drop (64 * (message.length / 64)) ++ piece) := by
  have hn : (message ++ piece).length / 64 = message.length / 64 + 1 := by
    rw [List.length_append]
    omega
  have hlast : block (message ++ piece) (message.length / 64) =
      message.drop (64 * (message.length / 64)) ++ piece := by
    have hlen : (message.drop (64 * (message.length / 64)) ++ piece).length = 64 := by
      rw [List.length_append, List.length_drop]
      omega
    rw [block, Mem.read, List.drop_append_of_le_length (by omega), List.takeD_eq_take 0 (by omega),
      List.take_of_length_le (by omega)]
  rw [absorb, absorb, hn, List.range_succ, List.foldl_append, foldl_blocks_append (by omega),
    List.foldl_cons, hlast, List.foldl_nil]

end

/-! ## 3. A message in pieces -/

/-- **A hash value and a block begun hold a message**: the hash value is that behind its whole blocks,
the block begun holds the rest. -/
structure Holds (h : W) (begun message : List UInt8) : Prop where
  value : h = s.absorb message
  begun : begun = message.drop (64 * (message.length / 64))

section

variable {s} {h : W} {begun message piece : List UInt8}

theorem holds_nil : s.Holds s.initial [] [] := ⟨rfl, rfl⟩

theorem Holds.length_begun (hs : s.Holds h begun message) : begun.length = message.length % 64 := by
  rw [hs.begun, List.length_drop]
  omega

theorem Holds.short (hs : s.Holds h begun message) (hlen : message.length % 64 + piece.length < 64) :
    s.Holds h (begun ++ piece) (message ++ piece) := by
  have hn : (message ++ piece).length / 64 = message.length / 64 := by
    rw [List.length_append]
    omega
  refine ⟨hs.value.trans (absorb_append_short hlen).symm, ?_⟩
  rw [hn, List.drop_append_of_le_length (by omega), ← hs.begun]

theorem Holds.close (hs : s.Holds h begun message) (hlen : message.length % 64 + piece.length = 64) :
    s.Holds (s.compress h (begun ++ piece)) [] (message ++ piece) := by
  refine ⟨?_, ?_⟩
  · rw [absorb_append_block hlen, hs.value, ← hs.begun]
  · rw [eq_comm, List.drop_eq_nil_iff, List.length_append]
    omega

/-! ## 4. The end of a message -/

/-- There is room for the bit `1` and the length behind the block begun. -/
theorem Holds.absorb_pad_one (hs : s.Holds h begun message) (hroom : begun.length ≤ 55) :
    s.absorb (s.pad message) =
      s.compress h ((begun ++ [0x80]).takeD 56 0 ++ s.lengthOctets (8 * message.length)) := by
  have hbegun := hs.length_begun
  have hlength := s.length_lengthOctets (8 * message.length)
  have hfull : message.length % 64 + (0x80 :: List.replicate (55 - begun.length) 0 ++
      s.lengthOctets (8 * message.length)).length = 64 := by
    rw [List.length_append, hlength, List.length_cons, List.length_replicate]
    omega
  have hclose := hs.close hfull
  have hpad : s.pad message = message ++ (0x80 :: List.replicate (55 - begun.length) 0 ++
      s.lengthOctets (8 * message.length)) := by
    have hzeros : zeros message.length = 55 - begun.length := by
      rw [zeros]
      omega
    rw [pad, hzeros, List.append_assoc]
  have htake : (begun ++ [(0x80 : UInt8)]).takeD 56 0 =
      begun ++ 0x80 :: List.replicate (55 - begun.length) 0 := by
    have hlen : (begun ++ [(0x80 : UInt8)]).length = begun.length + 1 := by
      rw [List.length_append, List.length_singleton]
    have hrest : 56 - (begun.length + 1) = 55 - begun.length := by omega
    rw [Octets.takeD_of_length_le (by omega), hlen, hrest, List.append_assoc, List.singleton_append]
  rw [hpad, htake, ← hclose.value, List.append_assoc]

/-- The bit `1` and zeros close the block begun; zeros and the length are the next. -/
theorem Holds.absorb_pad_two (hs : s.Holds h begun message) (hroom : 55 < begun.length) :
    s.absorb (s.pad message) =
      s.compress (s.compress h ((begun ++ [0x80]).takeD 64 0))
        (List.replicate 56 0 ++ s.lengthOctets (8 * message.length)) := by
  have hbegun := hs.length_begun
  have hmod := Nat.mod_lt message.length (show 0 < 64 by decide)
  have hlength := s.length_lengthOctets (8 * message.length)
  have hfull : message.length % 64 + (0x80 :: List.replicate (63 - begun.length) (0 : UInt8)).length =
      64 := by
    rw [List.length_cons, List.length_replicate]
    omega
  have hclose := hs.close hfull
  have hwhole : (message ++ (0x80 :: List.replicate (63 - begun.length) (0 : UInt8))).length % 64 = 0 := by
    rw [List.length_append, List.length_cons, List.length_replicate]
    omega
  have hfull' : (message ++ (0x80 :: List.replicate (63 - begun.length) (0 : UInt8))).length % 64 +
      (List.replicate 56 0 ++ s.lengthOctets (8 * message.length)).length = 64 := by
    rw [hwhole, List.length_append, List.length_replicate, hlength]
  have hlast := hclose.close hfull'
  have hpad : s.pad message = message ++ (0x80 :: List.replicate (63 - begun.length) 0) ++
      (List.replicate 56 0 ++ s.lengthOctets (8 * message.length)) := by
    have hzeros : zeros message.length = 63 - begun.length + 56 := by
      rw [zeros]
      omega
    rw [pad, hzeros, List.replicate_add]
    simp
  have htake : (begun ++ [(0x80 : UInt8)]).takeD 64 0 =
      begun ++ 0x80 :: List.replicate (63 - begun.length) 0 := by
    have hlen : (begun ++ [(0x80 : UInt8)]).length = begun.length + 1 := by
      rw [List.length_append, List.length_singleton]
    have hrest : 64 - (begun.length + 1) = 63 - begun.length := by omega
    rw [Octets.takeD_of_length_le (by omega), hlen, hrest, List.append_assoc, List.singleton_append]
  rw [hpad, htake, ← hlast.value, List.nil_append]

end

end BlockHash
