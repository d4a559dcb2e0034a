/-
# The Michael code

The message integrity code of TKIP, as the standard defines it: over words of 32 bits, with the
message filled up to whole words by `0x5a` and then zeros. `absorb` is the code over the whole words
of a message, and goes on from one stretch of whole words to the next (`absorb_append`).
-/
import Mt7601.Lib.LeWord

namespace Michael

open LeWord

/-! ## 1. Words -/

/-- The whole words of a message. -/
def words : List UInt8 → List (BitVec 32)
  | a :: b :: c :: d :: rest => word [a, b, c, d] :: words rest
  | _ => []

theorem words_append {l : List UInt8} (h : 4 ∣ l.length) (m : List UInt8) :
    words (l ++ m) = words l ++ words m := by
  induction l using words.induct with
  | case1 a b c d rest ih =>
    have hrest : 4 ∣ rest.length := by
      simp only [List.length_cons] at h
      omega
    simp [words, ih hrest]
  | case2 l hshort =>
    match l, hshort with
    | [], _ => rfl
    | [_], _ => simp at h
    | [_, _], _ => simp at h
    | [_, _, _], _ => simp at h
    | a :: b :: c :: d :: rest, hshort => exact absurd rfl (hshort a b c d rest)

/-! ## 2. The code -/

/-- Both halves of a word with their octets exchanged. -/
def xswap (x : BitVec 32) : BitVec 32 :=
  ((x &&& 0xff00ff00#32) >>> 8) ||| ((x &&& 0x00ff00ff#32) <<< 8)

/-- The block function. -/
def block (s : BitVec 32 × BitVec 32) : BitVec 32 × BitVec 32 :=
  let r := s.2 ^^^ s.1.rotateLeft 17
  let l := s.1 + r
  let r := r ^^^ xswap l
  let l := l + r
  let r := r ^^^ l.rotateLeft 3
  let l := l + r
  let r := r ^^^ l.rotateRight 2
  (l + r, r)

/-- One word of the message. -/
def step (s : BitVec 32 × BitVec 32) (m : BitVec 32) : BitVec 32 × BitVec 32 :=
  block (s.1 ^^^ m, s.2)

/-- The state after the whole words of a message. -/
def absorb (s : BitVec 32 × BitVec 32) (message : List UInt8) : BitVec 32 × BitVec 32 :=
  (words message).foldl step s

/-- `0x5a`, and at least four zeros. -/
def padded (message : List UInt8) : List UInt8 :=
  message ++ 0x5a :: List.replicate (7 - message.length % 4) 0

/-- The key of eight octets as a state. -/
def start (key : List UInt8) : BitVec 32 × BitVec 32 := (word (key.take 4), word (key.drop 4))

/-- The code of a message, of eight octets. -/
def code (key message : List UInt8) : List UInt8 :=
  let s := absorb (start key) (padded message)
  octets s.1 ++ octets s.2

theorem absorb_append {l : List UInt8} (h : 4 ∣ l.length) (s : BitVec 32 × BitVec 32)
    (m : List UInt8) : absorb s (l ++ m) = absorb (absorb s l) m := by
  rw [absorb, words_append h, List.foldl_append]
  rfl

theorem absorb_four (s : BitVec 32 × BitVec 32) {l : List UInt8} (h : l.length = 4) :
    absorb s l = step s (word l) := by
  match l, h with
  | [_, _, _, _], _ => rfl

theorem four_dvd_length_padded (message : List UInt8) : 4 ∣ (padded message).length := by
  rw [padded, List.length_append, List.length_cons, List.length_replicate]
  omega

end Michael
