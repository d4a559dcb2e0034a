/-
# Counter mode with a chained tag

What CCM is made of, over any block cipher `E`: a chain of blocks each added to the cipher of what
went before (`chain`), a stream of pads added to the text (`stream`), and the two together: a text
is sealed by putting behind it, under the stream, a tag of the text, and opened by taking the stream
off and comparing the tag. How the counters and the first blocks of the chain are formatted is not
said here; `Mode` takes the pads and the tag as they come, and `open_seal` holds for all of them.
-/
import Mathlib.Data.List.GetD
import Mt7601.Lib.Octets

namespace Ccm

/-! ## 1. The stream -/

/-- Octet `i` of a sequence of blocks. -/
def octetAt (pads : Nat → Octets 16) (i : Nat) : UInt8 := (pads (i / 16)).toList.getD (i % 16) 0

/-- The pads added to a text. -/
def stream (pads : Nat → Octets 16) (l : List UInt8) : List UInt8 :=
  l.mapIdx fun i b => b ^^^ octetAt pads i

variable {pads : Nat → Octets 16}

@[simp] theorem length_stream (l : List UInt8) : (stream pads l).length = l.length :=
  List.length_mapIdx

/-- **The stream taken off again.** -/
theorem stream_stream (l : List UInt8) : stream pads (stream pads l) = l := by
  refine List.ext_getElem (by simp) fun i hi hi' => ?_
  simp [stream, UInt8.xor_assoc]

theorem stream_concat (l : List UInt8) (b : UInt8) :
    stream pads (l ++ [b]) = stream pads l ++ [b ^^^ octetAt pads l.length] :=
  List.mapIdx_concat

/-- Block `n` behind whole blocks. -/
theorem stream_append {n : Nat} {l m : List UInt8} (hl : l.length = 16 * n) (hm : m.length ≤ 16) :
    stream pads (l ++ m) = stream pads l ++ List.zipWith (· ^^^ ·) m (pads n).toList := by
  have hpad : (pads n).toList.length = 16 := (pads n).toList_length
  rw [stream, List.mapIdx_append]
  congr 1
  refine List.ext_getElem (by simp; omega) fun i hi hi' => ?_
  rw [List.length_mapIdx] at hi
  rw [List.getElem_mapIdx, List.getElem_zipWith, octetAt, show (i + l.length) / 16 = n by omega,
    show (i + l.length) % 16 = i by omega, List.getD_eq_getElem]

/-- Only the pads of the blocks that the text reaches count. -/
theorem stream_congr {pads' : Nat → Octets 16} {l : List UInt8}
    (h : ∀ i, 16 * i < l.length → pads i = pads' i) : stream pads l = stream pads' l := by
  refine List.ext_getElem (by simp) fun i hi _ => ?_
  rw [length_stream] at hi
  simp only [stream, List.getElem_mapIdx, octetAt, h (i / 16) (by omega)]

/-- What a text under the stream is in the two ways, in that the pads of its whole blocks agree. -/
theorem pads_eq_of_stream_eq {pads' : Nat → Octets 16} {l : List UInt8}
    (h : stream pads l = stream pads' l) {i : Nat} (hi : 16 * (i + 1) ≤ l.length) :
    pads i = pads' i := by
  have hoctet : ∀ k < 16, (pads i).toList.getD k 0 = (pads' i).toList.getD k 0 := by
    intro k hk
    have hk' : 16 * i + k < l.length := by omega
    have hget := congrArg (fun m : List UInt8 => m[16 * i + k]?) h
    simp only [stream, List.getElem?_mapIdx, List.getElem?_eq_getElem hk', Option.map_some,
      Option.some.injEq, octetAt] at hget
    rwa [UInt8.xor_right_inj, show (16 * i + k) / 16 = i by omega,
      show (16 * i + k) % 16 = k by omega] at hget
  refine List.Vector.toList_injective (List.ext_getElem (by simp) fun k hk hk' => ?_)
  rw [← List.getD_eq_getElem _ 0 hk, ← List.getD_eq_getElem _ 0 hk']
  exact hoctet k (by simpa using hk)

/-! ## 2. The chain -/

/-- The sum of two blocks. -/
def add (a b : Octets 16) : Octets 16 := .ofList 16 (List.zipWith (· ^^^ ·) a.toList b.toList)

theorem toList_add (a b : Octets 16) :
    (add a b).toList = List.zipWith (· ^^^ ·) a.toList b.toList := by
  have hlen : (List.zipWith (· ^^^ ·) a.toList b.toList).length = 16 := by simp
  rw [add, Octets.toList_ofList, List.takeD_eq_take 0 (by omega),
    List.take_of_length_le (Nat.le_of_eq hlen)]

theorem add_comm (a b : Octets 16) : add a b = add b a := by
  refine List.Vector.toList_injective ?_
  rw [toList_add, toList_add]
  exact List.zipWith_comm_of_comm UInt8.xor_comm

/-- Adding the pad twice adds nothing. -/
theorem zipWith_zipWith_xor {l pad : List UInt8} (h : l.length ≤ pad.length) :
    List.zipWith (· ^^^ ·) (List.zipWith (· ^^^ ·) l pad) pad = l := by
  refine List.ext_getElem (by simp; omega) fun i hi hi' => ?_
  simp [UInt8.xor_assoc]

theorem zipWith_xor_take (l pad : List UInt8) (n : Nat) :
    List.zipWith (· ^^^ ·) (l.take n) pad = (List.zipWith (· ^^^ ·) l pad).take n := by
  refine List.ext_getElem (by simp) fun i hi hi' => ?_
  simp

theorem add_add_cancel (a b : Octets 16) : add (add a b) b = a := by
  refine List.Vector.toList_injective ?_
  rw [toList_add, toList_add]
  exact zipWith_zipWith_xor (by simp)

/-- Block `i` of a text, the last filled up with zeros. -/
def blockAt (l : List UInt8) (i : Nat) : Octets 16 := .ofList 16 (Mem.read l (16 * i) 16)

/-- A text chained onto `x`. -/
def chain (E : Octets 16 → Octets 16) (x : Octets 16) (l : List UInt8) : Octets 16 :=
  (List.range ((l.length + 15) / 16)).foldl (fun x i => E (add (blockAt l i) x)) x

/-- Behind whole blocks, one block more, or a part of one. -/
theorem chain_eq (E : Octets 16 → Octets 16) (x : Octets 16) (l : List UInt8) :
    chain E x l =
      let y := (List.range (l.length / 16)).foldl (fun x i => E (add (blockAt l i) x)) x
      if l.length % 16 = 0 then y else E (add (blockAt l (l.length / 16)) y) := by
  rw [chain]
  dsimp only
  split_ifs with h
  · rw [show (l.length + 15) / 16 = l.length / 16 by omega]
  · rw [show (l.length + 15) / 16 = l.length / 16 + 1 by omega, List.range_succ, List.foldl_append,
      List.foldl_cons, List.foldl_nil]

/-- A block of a text is what is left of the text there. -/
theorem blockAt_eq {l : List UInt8} {i n : Nat} (h : 16 * i + n = l.length) (hn : n ≤ 16) :
    blockAt l i = .ofList 16 (Mem.read l (16 * i) n) := by
  have hlen : (l.drop (16 * i)).length = n := by
    rw [List.length_drop]
    omega
  have hread : Mem.read l (16 * i) n = l.drop (16 * i) := by
    rw [Mem.read, List.takeD_eq_take 0 (by omega), List.take_of_length_le (by omega)]
  refine List.Vector.toList_injective ?_
  rw [blockAt, hread, Octets.toList_ofList, Octets.toList_ofList, Mem.read]
  exact List.takeD_eq_take _ (by simp) |>.trans (List.take_of_length_le (by simp))

/-- A chain of one block. -/
theorem chain_short (E : Octets 16 → Octets 16) (x : Octets 16) {l : List UInt8}
    (hpos : 0 < l.length) (hle : l.length ≤ 16) : chain E x l = E (add (.ofList 16 l) x) := by
  have hblock : blockAt l 0 = .ofList 16 l := by
    rw [blockAt_eq (n := l.length) (by omega) hle, Mem.read, List.drop_zero,
      List.takeD_eq_take 0 (Nat.le_refl _), List.take_length]
  rw [chain, show (l.length + 15) / 16 = 1 by omega, ← hblock]
  rfl

/-- A chain that begins with a whole block. -/
theorem chain_append (E : Octets 16 → Octets 16) (x : Octets 16) {l : List UInt8}
    (hl : l.length = 16) (m : List UInt8) :
    chain E x (l ++ m) = chain E (E (add (.ofList 16 l) x)) m := by
  have hfirst : blockAt (l ++ m) 0 = .ofList 16 l := by
    have hread := @Mem.read_append_of_le l m 0 16 (by omega)
    have hall := Mem.read_zero_of_append (l := l) (m := [])
    rw [List.append_nil, hl] at hall
    rw [blockAt, Nat.mul_zero, hread, hall]
  have hnext : ∀ i, blockAt (l ++ m) (i + 1) = blockAt m i := by
    intro i
    have hdrop : (l ++ m).drop (16 * (i + 1)) = m.drop (16 * i) := by
      rw [show 16 * (i + 1) = l.length + 16 * i by omega, ← List.drop_drop, List.drop_left]
    rw [blockAt, blockAt, Mem.read, Mem.read, hdrop]
  rw [chain, chain, List.length_append, hl,
    show (16 + m.length + 15) / 16 = (m.length + 15) / 16 + 1 by omega, List.range_succ_eq_map,
    List.foldl_cons, List.foldl_map, hfirst]
  simp only [Nat.succ_eq_add_one, hnext]

/-! ## 3. Sealing -/

/-- The pads of the text, the pad of the tag, and the tag. -/
structure Mode where
  pads : Nat → Octets 16
  tagPad : Octets 16
  mac : List UInt8 → Octets 16

namespace Mode

/-- The tag of a text as it is sent, of `n` octets. -/
def tag (M : Mode) (n : Nat) (l : List UInt8) : List UInt8 :=
  (add (M.mac l) M.tagPad).toList.take n

/-- The text under the stream, then the tag. -/
def sealed (M : Mode) (n : Nat) (l : List UInt8) : List UInt8 :=
  stream M.pads l ++ M.tag n l

/-- The text, if the tag behind it is the right one. -/
def opened (M : Mode) (n : Nat) (c : List UInt8) : Option (List UInt8) :=
  let l := stream M.pads (c.take (c.length - n))
  if M.tag n l = c.drop (c.length - n) then some l else none

theorem length_tag (M : Mode) {n : Nat} (hn : n ≤ 16) (l : List UInt8) :
    (M.tag n l).length = n := by
  rw [tag, List.length_take, List.Vector.toList_length, Nat.min_eq_left hn]

@[simp] theorem length_sealed (M : Mode) {n : Nat} (hn : n ≤ 16) (l : List UInt8) :
    (M.sealed n l).length = l.length + n := by
  rw [sealed, List.length_append, length_stream, length_tag M hn]

/-- The tag is the right one if, its pad taken off, it is what the text gives. -/
theorem tag_eq_iff (M : Mode) {n : Nat} (hn : n ≤ 16) (l : List UInt8) {t : List UInt8}
    (ht : t.length = n) :
    M.tag n l = t ↔ List.zipWith (· ^^^ ·) t M.tagPad.toList = (M.mac l).toList.take n := by
  have hpad : M.tagPad.toList.length = 16 := M.tagPad.toList_length
  rw [tag, toList_add, ← zipWith_xor_take]
  constructor
  · rintro rfl
    exact zipWith_zipWith_xor (by simp)
  · intro h
    rw [← h]
    exact zipWith_zipWith_xor (by omega)

/-- **What is sealed is opened.** -/
theorem opened_sealed (M : Mode) {n : Nat} (hn : n ≤ 16) (l : List UInt8) :
    M.opened n (M.sealed n l) = some l := by
  have hlen : (M.sealed n l).length - n = (stream M.pads l).length := by
    rw [length_sealed M hn, length_stream, Nat.add_sub_cancel]
  rw [opened, hlen, sealed, List.take_left, List.drop_left, stream_stream, if_pos rfl]

/-- What is opened has the right tag. -/
theorem opened_eq_some_iff (M : Mode) (n : Nat) (c l : List UInt8) :
    M.opened n c = some l ↔ stream M.pads (c.take (c.length - n)) = l ∧
      M.tag n l = c.drop (c.length - n) := by
  rw [opened]
  split_ifs with h
  · constructor
    · intro hl
      obtain rfl := Option.some.inj hl
      exact ⟨rfl, h⟩
    · rintro ⟨rfl, -⟩
      rfl
  · constructor
    · intro hl
      exact absurd hl (by simp)
    · rintro ⟨rfl, htag⟩
      exact absurd htag h

theorem length_of_opened {M : Mode} {n : Nat} {c l : List UInt8} (h : M.opened n c = some l) :
    l.length = c.length - n := by
  obtain ⟨rfl, -⟩ := (M.opened_eq_some_iff n c l).1 h
  rw [length_stream, List.length_take]
  omega

/-- Two modes that agree as far as the text goes open alike. -/
theorem opened_congr {M N : Mode} {n : Nat} {c : List UInt8}
    (hpads : ∀ i, 16 * i < c.length - n → M.pads i = N.pads i) (hpad : M.tagPad = N.tagPad)
    (hmac : ∀ l : List UInt8, l.length = c.length - n → M.mac l = N.mac l) :
    M.opened n c = N.opened n c := by
  have hlen : (c.take (c.length - n)).length = c.length - n := by
    rw [List.length_take]
    omega
  have hstream : stream M.pads (c.take (c.length - n)) = stream N.pads (c.take (c.length - n)) :=
    stream_congr fun i hi => hpads i (by omega)
  rw [opened, opened, hstream, tag, tag, hpad, hmac _ (by rw [length_stream, hlen])]

end Mode

end Ccm
